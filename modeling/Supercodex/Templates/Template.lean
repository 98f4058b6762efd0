import Supercodex.Library.SortedMap
import Supercodex.Library.Replace

/-!
# Strict templates (`utils/template/src/lib.rs`)

A template is parsed into literals and placeholders. Rendering takes exactly one value for each placeholder.
-/

namespace Supercodex.Templates

open Text

/-- `TemplateParseError`, with the byte the error is at. -/
inductive TemplateParseError where
  | emptyPlaceholder (start : ℕ)
  | nestedPlaceholder (start : ℕ)
  | unmatchedClosingDelimiter (start : ℕ)
  | unterminatedPlaceholder (start : ℕ)
deriving DecidableEq

/-- `TemplateRenderError`. -/
inductive TemplateRenderError where
  | duplicateValue (name : Text)
  | extraValue (name : Text)
  | missingValue (name : Text)
deriving DecidableEq

/-- `TemplateError`. -/
inductive TemplateError where
  | parse (err : TemplateParseError)
  | render (err : TemplateRenderError)
deriving DecidableEq

/-- `Segment`. -/
inductive Segment where
  | literal (text : Text)
  | placeholder (name : Text)
deriving DecidableEq

/-- The two braces before a placeholder. -/
def opening : Text := ['\x7b', '\x7b']

/-- The two braces after a placeholder. -/
def closing : Text := ['\x7d', '\x7d']

/-! ## Segments -/

/-- `push_literal`. -/
def pushLiteral (segments : List Segment) (literal : Text) : List Segment :=
  if literal = [] then segments
  else
    match segments.getLast? with
    | some (.literal existing) => segments.dropLast ++ [.literal (existing ++ literal)]
    | _ => segments ++ [.literal literal]

lemma placeholder_mem_pushLiteral {segments : List Segment} {literal name : Text} :
    .placeholder name ∈ pushLiteral segments literal ↔ .placeholder name ∈ segments := by
  unfold pushLiteral
  split
  · rfl
  split
  · rename_i existing hlast
    obtain ⟨before, rfl⟩ := List.getLast?_eq_some_iff.mp hlast
    rw [List.dropLast_concat]
    simp
  · simp

/-- `Template`: its segments, and the set of their placeholders. -/
structure Template where
  placeholders : SortedMap Text Unit
  segments : List Segment
  covered : ∀ name, name ∈ placeholders.keys ↔ .placeholder name ∈ segments

/-- The template without segments. -/
def Template.empty : Template := ⟨.empty, [], by simp⟩

/-- The template with a literal pushed. -/
def Template.pushLiteral (template : Template) (literal : Text) : Template where
  placeholders := template.placeholders
  segments := Templates.pushLiteral template.segments literal
  covered := by
    intro name
    rw [placeholder_mem_pushLiteral, template.covered]

/-- The template with a placeholder inserted and pushed. -/
def Template.pushPlaceholder (template : Template) (name : Text) : Template where
  placeholders := template.placeholders.insert name ()
  segments := template.segments ++ [.placeholder name]
  covered := by
    intro name'
    rw [SortedMap.mem_keys_insert, template.covered, List.mem_append, List.mem_singleton, Segment.placeholder.injEq,
      or_comm]

/-! ## Parsing -/

/-- The loop of `parse_placeholder`, from a byte on: the name read so far and the rest of the source. The result
is the name, and the byte and the rest behind the placeholder. -/
def placeholderLoop (start : ℕ) (placeholder : Text) (cursor : ℕ) :
    Text → Except TemplateParseError (Text × ℕ × Text)
  | [] => .error (.unterminatedPlaceholder start)
  | c :: rest =>
    if opening <+: c :: rest then .error (.nestedPlaceholder start)
    else if closing <+: c :: rest then
      if placeholder.trim = [] then .error (.emptyPlaceholder start)
      else .ok (placeholder.trim, cursor + 2, rest.drop 1)
    else placeholderLoop start (placeholder ++ [c]) (cursor + c.utf8Size) rest

/-- `parse_placeholder`, where the source from `start` on is `rest`. -/
def parsePlaceholder (start : ℕ) (rest : Text) : Except TemplateParseError (Text × ℕ × Text) :=
  placeholderLoop start [] (start + 2) (rest.drop 2)

lemma placeholderLoop_length {start : ℕ} {placeholder name : Text} {cursor next : ℕ} {rest rest' : Text}
    (h : placeholderLoop start placeholder cursor rest = .ok (name, next, rest')) : rest'.length ≤ rest.length := by
  induction rest generalizing placeholder cursor with
  | nil => cases h
  | cons c rest ih =>
    rw [placeholderLoop] at h
    split at h
    · cases h
    split at h
    · split at h
      · cases h
      · cases h
        rw [List.length_drop, List.length_cons]
        omega
    · have hle := ih h
      rw [List.length_cons]
      omega

/-- The loop of `Template::parse`, from a byte on: the template so far, the literal from `literal_start` on, and the
rest of the source. -/
def parseLoop (template : Template) (literal : Text) (cursor : ℕ) : Text → Except TemplateParseError Template
  | [] => .ok (template.pushLiteral literal)
  | c :: rest =>
    if opening ++ opening <+: c :: rest then
      parseLoop ((template.pushLiteral literal).pushLiteral opening) [] (cursor + 4) (rest.drop 3)
    else if closing ++ closing <+: c :: rest then
      parseLoop ((template.pushLiteral literal).pushLiteral closing) [] (cursor + 4) (rest.drop 3)
    else if opening <+: c :: rest then
      match _h : parsePlaceholder cursor (c :: rest) with
      | .error err => .error err
      | .ok (placeholder, next, rest') =>
        parseLoop ((template.pushLiteral literal).pushPlaceholder placeholder) [] next rest'
    else if closing <+: c :: rest then .error (.unmatchedClosingDelimiter cursor)
    else parseLoop template (literal ++ [c]) (cursor + c.utf8Size) rest
  termination_by rest => rest.length
  decreasing_by
  · rw [List.length_drop, List.length_cons]
    omega
  · rw [List.length_drop, List.length_cons]
    omega
  · have hle := placeholderLoop_length _h
    rw [List.length_drop, List.length_cons] at hle
    rw [List.length_cons]
    omega
  · rw [List.length_cons]
    omega

/-- `Template::parse`. -/
def Template.parse (source : Text) : Except TemplateParseError Template := parseLoop .empty [] 0 source

/-! ## Rendering -/

/-- `build_variable_map`. -/
def buildVariableMap (values : List (Text × Text)) : Except TemplateRenderError (SortedMap Text Text) :=
  values.foldlM (fun map (name, value) =>
    if name ∈ map.keys then .error (.duplicateValue name) else .ok (map.insert name value)) .empty

/-- One round of the loop over the segments. -/
def renderSegment (values : SortedMap Text Text) (rendered : Text) :
    Segment → Except TemplateRenderError Text
  | .literal literal => .ok (rendered ++ literal)
  | .placeholder name =>
    match values.get? name with
    | none => .error (.missingValue name)
    | some value => .ok (rendered ++ value)

/-- `Template::render`. -/
def Template.render (template : Template) (values : List (Text × Text)) : Except TemplateRenderError Text := do
  let values ← buildVariableMap values
  match template.placeholders.keys.find? (· ∉ values.keys) with
  | some placeholder => .error (.missingValue placeholder)
  | none =>
    match values.keys.find? (· ∉ template.placeholders.keys) with
    | some name => .error (.extraValue name)
    | none => template.segments.foldlM (renderSegment values) []

/-- `render`. -/
def render (template : Text) (values : List (Text × Text)) : Except TemplateError Text :=
  match Template.parse template with
  | .error err => .error (.parse err)
  | .ok template => (template.render values).mapError .render

end Supercodex.Templates

/-!
# Escaped text and filled-in placeholders

The grammar of templates says how a source is cut into escapes, placeholders and other characters. What
`Template.parse` accepts is what the grammar reads, and what is rendered is what was read, with a value for each
placeholder.
-/

namespace Supercodex.Templates

open Text

/-! ## The grammar -/

/-- A text between delimiters, in which no delimiter starts. -/
structure Undelimited (inside : Text) : Prop where
  opening : ¬ opening <:+: inside
  closing : ¬ closing <:+: inside
  last : inside.getLast? ≠ some '\x7d'

/-- How a source is read from left to right. -/
inductive Reads : Text → List Segment → Prop
  | nil : Reads [] []
  | openingEscape {rest : Text} {segments : List Segment} (hrest : Reads rest segments) :
      Reads (opening ++ opening ++ rest) (.literal opening :: segments)
  | closingEscape {rest : Text} {segments : List Segment} (hrest : Reads rest segments) :
      Reads (closing ++ closing ++ rest) (.literal closing :: segments)
  | placeholder {inside rest : Text} {segments : List Segment} (hinside : Undelimited inside)
      (hname : inside.trim ≠ []) (hrest : Reads rest segments) :
      Reads (opening ++ inside ++ closing ++ rest) (.placeholder inside.trim :: segments)
  | char {c : Char} {rest : Text} {segments : List Segment} (hopening : ¬ opening <+: c :: rest)
      (hclosing : ¬ closing <+: c :: rest) (hrest : Reads rest segments) :
      Reads (c :: rest) (.literal [c] :: segments)

/-- What a segment stands for: a literal for itself, and a placeholder for its value. -/
def Segment.expand (values : List (Text × Text)) : Segment → Text
  | .literal text => text
  | .placeholder name => (values.lookup name).getD []

/-! ## Delimiters -/

variable {c : Char}

lemma opening_isInitial_iff {t : Text} :
    opening <+: c :: t ↔ c = '\x7b' ∧ t.head? = some '\x7b' := by
  cases t <;> simp [opening, List.cons_prefix_cons, eq_comm]

lemma closing_isInitial_iff {t : Text} :
    closing <+: c :: t ↔ c = '\x7d' ∧ t.head? = some '\x7d' := by
  cases t <;> simp [closing, List.cons_prefix_cons, eq_comm]

lemma undelimited_nil : Undelimited [] := ⟨by decide, by decide, nofun⟩

/-- A text is scanned character by character up to its closing delimiter. -/
lemma undelimited_cons {inside : Text} (rest : Text) :
    Undelimited (c :: inside) ↔ ¬ opening <+: c :: (inside ++ closing ++ rest) ∧
      ¬ closing <+: c :: (inside ++ closing ++ rest) ∧ Undelimited inside := by
  cases inside with
  | nil =>
    rw [opening_isInitial_iff, closing_isInitial_iff]
    constructor
    · rintro ⟨-, -, hlast⟩
      refine ⟨?_, ?_, undelimited_nil⟩
      · rintro ⟨-, hhead⟩
        revert hhead
        show ¬ some '\x7d' = some '\x7b'
        decide
      · rintro ⟨rfl, -⟩
        exact hlast rfl
    · rintro ⟨-, hclosing, -⟩
      constructor
      · rw [List.infix_cons_iff]
        simp [opening]
      · rw [List.infix_cons_iff]
        simp [closing]
      · rw [List.getLast?_singleton, ne_eq, Option.some.injEq]
        rintro rfl
        exact hclosing ⟨rfl, rfl⟩
  | cons d inside =>
    have hopening : opening <+: c :: (d :: inside ++ closing ++ rest) ↔ opening <+: c :: d :: inside := by
      rw [opening_isInitial_iff, opening_isInitial_iff]
      rfl
    have hclosing : closing <+: c :: (d :: inside ++ closing ++ rest) ↔ closing <+: c :: d :: inside := by
      rw [closing_isInitial_iff, closing_isInitial_iff]
      rfl
    rw [hopening, hclosing]
    constructor
    · rintro ⟨ho, hc, hlast⟩
      rw [List.infix_cons_iff, not_or] at ho hc
      exact ⟨ho.1, hc.1, ho.2, hc.2, by simpa using hlast⟩
    · rintro ⟨ho, hc, ho', hc', hlast⟩
      constructor
      · rw [List.infix_cons_iff, not_or]
        exact ⟨ho, ho'⟩
      · rw [List.infix_cons_iff, not_or]
        exact ⟨hc, hc'⟩
      · simpa using hlast

/-! ## Parsing -/

section Placeholder

variable {start cursor next : ℕ} {read name rest rest' : Text}

lemma placeholderLoop_sound (h : placeholderLoop start read cursor rest = .ok (name, next, rest')) :
    ∃ inside, rest = inside ++ closing ++ rest' ∧ Undelimited inside ∧ name = (read ++ inside).trim ∧ name ≠ [] := by
  induction rest generalizing read cursor with
  | nil => cases h
  | cons c rest ih =>
    rw [placeholderLoop] at h
    split at h
    · cases h
    rename_i hopening
    split at h
    · rename_i hclosing
      split at h
      · cases h
      rename_i hname
      cases h
      obtain ⟨rest', hrest⟩ := hclosing
      refine ⟨[], ?_, undelimited_nil, by rw [List.append_nil], hname⟩
      rw [← hrest]
      obtain ⟨-, rfl⟩ := List.cons.inj hrest
      rfl
    · rename_i hclosing
      obtain ⟨inside, rfl, hinside, hname, hne⟩ := ih h
      refine ⟨c :: inside, rfl, (undelimited_cons rest').mpr ⟨hopening, hclosing, hinside⟩, ?_, hne⟩
      rw [hname, List.append_assoc]
      rfl

lemma placeholderLoop_complete {inside : Text} (read : Text) (cursor : ℕ) (hinside : Undelimited inside) (hname : (read ++ inside).trim ≠ []) :
    ∃ next, placeholderLoop start read cursor (inside ++ closing ++ rest) =
      .ok ((read ++ inside).trim, next, rest) := by
  induction inside generalizing read cursor with
  | nil =>
    rw [List.append_nil] at hname ⊢
    refine ⟨cursor + 2, ?_⟩
    show placeholderLoop start read cursor ('\x7d' :: '\x7d' :: rest) = _
    rw [placeholderLoop, if_neg (by simp [opening_isInitial_iff]), if_pos (by simp [closing_isInitial_iff]),
      if_neg hname]
    rfl
  | cons c inside ih =>
    obtain ⟨hopening, hclosing, hrest⟩ := (undelimited_cons rest).mp hinside
    have hread : read ++ c :: inside = read ++ [c] ++ inside := by simp
    rw [hread] at hname ⊢
    obtain ⟨next, hnext⟩ := ih (read ++ [c]) (cursor + c.utf8Size) hrest hname
    refine ⟨next, ?_⟩
    show placeholderLoop start read cursor (c :: (inside ++ closing ++ rest)) = _
    rw [placeholderLoop, if_neg hopening, if_neg hclosing, hnext]

end Placeholder

lemma pushLiteral_append (segments : List Segment) (t u : Text) :
    pushLiteral segments (t ++ u) = pushLiteral (pushLiteral segments t) u := by
  by_cases ht : t = []
  · rw [ht]
    rfl
  by_cases hu : u = []
  · rw [hu, List.append_nil]
    rfl
  unfold pushLiteral
  rw [if_neg (by simp [ht]), if_neg ht, if_neg hu]
  split
  · rw [List.getLast?_concat]
    simp
  · rw [List.getLast?_concat]
    simp

namespace Template

lemma pushLiteral_append (template : Template) (t u : Text) :
    template.pushLiteral (t ++ u) = (template.pushLiteral t).pushLiteral u := by
  unfold pushLiteral
  simp only [Templates.pushLiteral_append]

/-- The template with a segment pushed. -/
def push (template : Template) : Segment → Template
  | .literal text => template.pushLiteral text
  | .placeholder name => template.pushPlaceholder name

end Template

lemma exists_reads {template result : Template} {literal : Text} {cursor : ℕ} {rest : Text}
    (h : parseLoop template literal cursor rest = .ok result) : ∃ segments, Reads rest segments := by
  fun_induction parseLoop template literal cursor rest with
  | case1 => exact ⟨[], .nil⟩
  | case2 template literal cursor c rest hescape ih =>
    obtain ⟨segments, hsegments⟩ := ih h
    rw [← List.prefix_iff_eq_append.mp hescape]
    exact ⟨_, .openingEscape hsegments⟩
  | case3 template literal cursor c rest _ hescape ih =>
    obtain ⟨segments, hsegments⟩ := ih h
    rw [← List.prefix_iff_eq_append.mp hescape]
    exact ⟨_, .closingEscape hsegments⟩
  | case4 => cases h
  | case5 template literal cursor c rest _ _ hopening name next rest' hparse ih =>
    obtain ⟨segments, hsegments⟩ := ih h
    obtain ⟨inside, hrest, hinside, rfl, hname⟩ := placeholderLoop_sound hparse
    rw [← List.prefix_iff_eq_append.mp hopening]
    show ∃ segments, Reads (opening ++ (c :: rest).drop 2) segments
    rw [hrest, ← List.append_assoc, ← List.append_assoc]
    exact ⟨_, .placeholder hinside hname hsegments⟩
  | case6 => cases h
  | case7 template literal cursor c rest _ _ hopening hclosing ih =>
    obtain ⟨segments, hsegments⟩ := ih h
    exact ⟨_, .char hopening hclosing hsegments⟩

lemma not_escape_of_undelimited {inside : Text} (hinside : Undelimited inside) (hname : inside.trim ≠ [])
    (rest : Text) : ¬ opening <+: inside ++ closing ++ rest := by
  cases inside with
  | nil => exact absurd rfl hname
  | cons c inside => exact ((undelimited_cons rest).mp hinside).1

/-- A source that the grammar reads is accepted, and its segments are pushed one after the other. -/
lemma parseLoop_of_reads {rest : Text} {segments : List Segment} (h : Reads rest segments) (template : Template)
    (literal : Text) (cursor : ℕ) :
    parseLoop template literal cursor rest = .ok (segments.foldl Template.push (template.pushLiteral literal)) := by
  induction h generalizing template literal cursor with
  | nil =>
    rw [parseLoop]
    rfl
  | @openingEscape rest segments hrest ih =>
    show parseLoop template literal cursor ('\x7b' :: '\x7b' :: '\x7b' :: '\x7b' :: rest) = _
    rw [parseLoop, if_pos ⟨rest, rfl⟩]
    exact ih _ _ _
  | @closingEscape rest segments hrest ih =>
    show parseLoop template literal cursor ('\x7d' :: '\x7d' :: '\x7d' :: '\x7d' :: rest) = _
    rw [parseLoop, if_neg (by simp [opening]), if_pos ⟨rest, rfl⟩]
    exact ih _ _ _
  | @placeholder inside rest segments hinside hname hrest ih =>
    have hescape : ¬ opening ++ opening <+: '\x7b' :: '\x7b' :: (inside ++ closing ++ rest) := by
      have hnot := not_escape_of_undelimited hinside hname rest
      simpa [opening, List.cons_prefix_cons] using hnot
    obtain ⟨next, hparse⟩ : ∃ next, parsePlaceholder cursor ('\x7b' :: '\x7b' :: (inside ++ closing ++ rest)) =
        .ok (inside.trim, next, rest) :=
      placeholderLoop_complete [] _ hinside hname
    show parseLoop template literal cursor ('\x7b' :: '\x7b' :: (inside ++ closing ++ rest)) = _
    rw [parseLoop, if_neg hescape, if_neg (by simp [closing]), if_pos (by simp [opening])]
    split
    · rename_i herr
      rw [hparse] at herr
      cases herr
    · rename_i hok
      rw [hparse] at hok
      cases hok
      exact ih _ _ _
  | @char c rest segments hopening hclosing hrest ih =>
    have hescape : ¬ opening ++ opening <+: c :: rest := fun h => hopening ((List.prefix_append _ _).trans h)
    have hescape' : ¬ closing ++ closing <+: c :: rest := fun h => hclosing ((List.prefix_append _ _).trans h)
    rw [parseLoop, if_neg hescape, if_neg hescape', if_neg hopening, if_neg hclosing, ih,
      Template.pushLiteral_append]
    rfl

/-! ## Rendering -/

section Render

variable {values : List (Text × Text)}

/-- The values are taken if no name has two. -/
lemma buildVariableMap_iff {map : SortedMap Text Text} :
    buildVariableMap values = .ok map ↔ (values.map Prod.fst).Nodup ∧ map = .ofList values := by
  induction values using List.reverseRecOn generalizing map with
  | nil => simp [buildVariableMap, SortedMap.ofList, pure, Except.pure, eq_comm]
  | append_singleton values e ih =>
    have hstep : buildVariableMap (values ++ [e]) =
        buildVariableMap values >>= fun map =>
          if e.1 ∈ map.keys then .error (.duplicateValue e.1) else .ok (map.insert e.1 e.2) := by
      rw [buildVariableMap, List.foldlM_append]
      simp only [List.foldlM_cons, List.foldlM_nil, bind_pure]
      rfl
    have hnodup : ((values ++ [e]).map Prod.fst).Nodup ↔
        (values.map Prod.fst).Nodup ∧ e.1 ∉ (SortedMap.ofList values).keys := by
      rw [List.map_append, List.map_singleton, SortedMap.mem_keys_ofList, ← List.concat_eq_append,
        List.nodup_concat, and_comm]
    rw [hstep, hnodup, SortedMap.ofList_concat]
    cases hbuild : buildVariableMap values with
    | error err =>
      refine ⟨fun h => (by cases h), ?_⟩
      rintro ⟨⟨hvalues, -⟩, -⟩
      rw [ih.mpr ⟨hvalues, rfl⟩] at hbuild
      cases hbuild
    | ok map' =>
      obtain ⟨hvalues, rfl⟩ := ih.mp hbuild
      show (if e.1 ∈ (SortedMap.ofList values).keys then _ else _) = Except.ok map ↔ _
      split
      · rename_i hmem
        exact ⟨fun h => (by cases h), fun h => absurd hmem h.1.2⟩
      · rename_i hnew
        rw [Except.ok.injEq]
        exact ⟨fun h => ⟨⟨hvalues, hnew⟩, h.symm⟩, fun h => h.2.symm⟩

lemma renderSegments_eq (hvalues : (values.map Prod.fst).Nodup) {segments : List Segment}
    (h : ∀ name, .placeholder name ∈ segments → name ∈ values.map Prod.fst) (rendered : Text) :
    segments.foldlM (renderSegment (.ofList values)) rendered =
      .ok (rendered ++ segments.flatMap (Segment.expand values)) := by
  induction segments generalizing rendered with
  | nil => simp [pure, Except.pure]
  | cons segment segments ih =>
    have hrest : ∀ name, .placeholder name ∈ segments → name ∈ values.map Prod.fst :=
      fun name hname => h name (List.mem_cons_of_mem _ hname)
    have hsegment : renderSegment (.ofList values) rendered segment = .ok (rendered ++ segment.expand values) := by
      cases segment with
      | literal text => rfl
      | placeholder name =>
        have hname := h name List.mem_cons_self
        have hsome : values.lookup name ≠ none := by
          rw [← SortedMap.get?_ofList hvalues, ne_eq, SortedMap.get?_eq_none_iff, not_not,
            SortedMap.mem_keys_ofList]
          exact hname
        obtain ⟨value, hvalue⟩ := Option.ne_none_iff_exists'.mp hsome
        rw [renderSegment, SortedMap.get?_ofList hvalues, Segment.expand, hvalue]
        rfl
    rw [List.foldlM_cons, hsegment, List.flatMap_cons, ← List.append_assoc]
    exact ih hrest _

/-- A template is rendered exactly if each of its placeholders, and no other name, has one value. -/
lemma Template.render_iff {template : Template} {out : Text} :
    template.render values = .ok out ↔
      (values.map Prod.fst).Nodup ∧
      (∀ name, name ∈ values.map Prod.fst ↔ .placeholder name ∈ template.segments) ∧
      out = template.segments.flatMap (Segment.expand values) := by
  unfold render
  cases hmap : buildVariableMap values with
  | error err =>
    refine ⟨fun h => (by cases h), ?_⟩
    rintro ⟨hvalues, -⟩
    rw [buildVariableMap_iff.mpr ⟨hvalues, rfl⟩] at hmap
    cases hmap
  | ok map =>
    obtain ⟨hvalues, rfl⟩ := buildVariableMap_iff.mp hmap
    dsimp only [bind, Except.bind]
    cases hmissing : template.placeholders.keys.find? (· ∉ (SortedMap.ofList values).keys) with
    | some name =>
      refine ⟨fun h => (by cases h), ?_⟩
      rintro ⟨-, hnames, -⟩
      have hmem : name ∈ template.placeholders.keys := List.mem_of_find?_eq_some hmissing
      have hnot : name ∉ (SortedMap.ofList values).keys := by simpa using List.find?_some hmissing
      rw [SortedMap.mem_keys_ofList, hnames, ← template.covered] at hnot
      exact absurd hmem hnot
    | none =>
      cases hextra : (SortedMap.ofList values).keys.find? (· ∉ template.placeholders.keys) with
      | some name =>
        refine ⟨fun h => (by cases h), ?_⟩
        rintro ⟨-, hnames, -⟩
        have hmem : name ∈ (SortedMap.ofList values).keys := List.mem_of_find?_eq_some hextra
        have hnot : name ∉ template.placeholders.keys := by simpa using List.find?_some hextra
        rw [template.covered, ← hnames, ← SortedMap.mem_keys_ofList] at hnot
        exact absurd hmem hnot
      | none =>
        have hnames : ∀ name, name ∈ values.map Prod.fst ↔ .placeholder name ∈ template.segments := by
          intro name
          rw [← SortedMap.mem_keys_ofList, ← template.covered]
          constructor
          · intro hname
            simpa using List.find?_eq_none.mp hextra name hname
          · intro hname
            simpa using List.find?_eq_none.mp hmissing name hname
        show template.segments.foldlM (renderSegment (.ofList values)) [] = _ ↔ _
        rw [renderSegments_eq hvalues fun name hname => (hnames name).mpr hname, List.nil_append, Except.ok.injEq]
        exact ⟨fun h => ⟨hvalues, hnames, h.symm⟩, fun h => h.2.2.symm⟩

end Render

/-! ## Pushed segments -/

lemma flatMap_pushLiteral (values : List (Text × Text)) (segments : List Segment) (literal : Text) :
    (pushLiteral segments literal).flatMap (Segment.expand values) =
      segments.flatMap (Segment.expand values) ++ literal := by
  unfold pushLiteral
  split
  · rename_i hempty
    rw [hempty, List.append_nil]
  split
  · rename_i existing hlast
    obtain ⟨before, rfl⟩ := List.getLast?_eq_some_iff.mp hlast
    rw [List.dropLast_concat]
    simp [Segment.expand]
  · simp [Segment.expand]

lemma foldl_push (template : Template) (segments : List Segment) :
    (∀ name, .placeholder name ∈ (segments.foldl Template.push template).segments ↔
      .placeholder name ∈ template.segments ∨ .placeholder name ∈ segments) ∧
    ∀ values, (segments.foldl Template.push template).segments.flatMap (Segment.expand values) =
      template.segments.flatMap (Segment.expand values) ++ segments.flatMap (Segment.expand values) := by
  induction segments generalizing template with
  | nil => simp
  | cons segment segments ih =>
    obtain ⟨hnames, hexpand⟩ := ih (template.push segment)
    rw [List.foldl_cons]
    constructor
    · intro name
      rw [hnames]
      cases segment with
      | literal text =>
        show Segment.placeholder name ∈ pushLiteral template.segments text ∨ _ ↔ _
        rw [placeholder_mem_pushLiteral, List.mem_cons]
        simp
      | placeholder name' =>
        show Segment.placeholder name ∈ template.segments ++ [.placeholder name'] ∨ _ ↔ _
        rw [List.mem_append, List.mem_singleton, List.mem_cons, or_assoc]
    · intro values
      rw [hexpand, List.flatMap_cons, ← List.append_assoc]
      congr 1
      cases segment with
      | literal text => exact flatMap_pushLiteral values template.segments text
      | placeholder name' =>
        show (template.segments ++ [Segment.placeholder name']).flatMap (Segment.expand values) = _
        rw [List.flatMap_append, List.flatMap_singleton]

/-! ## Escaping -/

/-- The text with its delimiters escaped, from left to right. -/
def escape (t : Text) : Text := replace closing (closing ++ closing) (replace opening (opening ++ opening) t)

lemma head?_replace_doubled (d : Char) (t : Text) : (replace [d, d] [d, d, d, d] t).head? = t.head? := by
  cases t with
  | nil => rfl
  | cons c t =>
    by_cases h : [d, d] <+: c :: t
    · obtain ⟨rest, hrest⟩ := h
      obtain ⟨rfl, -⟩ := List.cons.inj hrest
      rw [← hrest, replace_append (by simp)]
      rfl
    · rw [replace_cons h]
      rfl

lemma head?_escape (t : Text) : (escape t).head? = t.head? :=
  (head?_replace_doubled '\x7d' _).trans (head?_replace_doubled '\x7b' t)

lemma escape_opening (t : Text) : escape (opening ++ t) = opening ++ opening ++ escape t := by
  have hkept : ∀ u : Text, ¬ closing <+: '\x7b' :: u := by simp [closing]
  rw [escape, replace_append (by simp [opening])]
  show replace closing _ ('\x7b' :: '\x7b' :: '\x7b' :: '\x7b' :: _) = _
  rw [replace_cons (hkept _), replace_cons (hkept _), replace_cons (hkept _), replace_cons (hkept _)]
  rfl

lemma escape_closing (t : Text) : escape (closing ++ t) = closing ++ closing ++ escape t := by
  have hkept : ∀ u : Text, ¬ opening <+: '\x7d' :: u := by simp [opening]
  have hinner : replace opening (opening ++ opening) (closing ++ t) =
      closing ++ replace opening (opening ++ opening) t := by
    show replace opening _ ('\x7d' :: '\x7d' :: t) = _
    rw [replace_cons (hkept _), replace_cons (hkept _)]
    rfl
  rw [escape, hinner, replace_append (by simp [closing]), escape]

lemma escape_cons {t : Text} (hopening : ¬ opening <+: c :: t) (hclosing : ¬ closing <+: c :: t) :
    escape (c :: t) = c :: escape t := by
  rw [escape, replace_cons hopening, replace_cons, escape]
  rw [closing_isInitial_iff] at hclosing ⊢
  have hhead := head?_replace_doubled '\x7b' t
  rintro ⟨hc, hnext⟩
  exact hclosing ⟨hc, hhead.symm.trans hnext⟩

/-- An escaped text is read as its own characters. -/
lemma exists_reads_escape (t : Text) :
    ∃ segments, Reads (escape t) segments ∧ (∀ name, .placeholder name ∉ segments) ∧
      ∀ values, segments.flatMap (Segment.expand values) = t := by
  induction ht : t.length using Nat.strong_induction_on generalizing t with
  | _ n ih =>
    subst ht
    cases t with
    | nil => exact ⟨[], .nil, by simp, fun _ => rfl⟩
    | cons c t =>
      have hshorter {before rest : Text} (hbefore : 0 < before.length) (hrest : before ++ rest = c :: t) :
          rest.length < (c :: t).length := by
        rw [← hrest, List.length_append]
        exact Nat.lt_add_of_pos_left hbefore
      by_cases hopening : opening <+: c :: t
      · obtain ⟨rest, hrest⟩ := hopening
        obtain ⟨segments, hreads, hnames, hexpand⟩ := ih rest.length (hshorter (by decide) hrest) rest rfl
        rw [← hrest, escape_opening]
        refine ⟨_, .openingEscape hreads, by simpa using hnames, ?_⟩
        intro values
        rw [List.flatMap_cons, hexpand]
        rfl
      by_cases hclosing : closing <+: c :: t
      · obtain ⟨rest, hrest⟩ := hclosing
        obtain ⟨segments, hreads, hnames, hexpand⟩ := ih rest.length (hshorter (by decide) hrest) rest rfl
        rw [← hrest, escape_closing]
        refine ⟨_, .closingEscape hreads, by simpa using hnames, ?_⟩
        intro values
        rw [List.flatMap_cons, hexpand]
        rfl
      obtain ⟨segments, hreads, hnames, hexpand⟩ := ih t.length (by simp) t rfl
      rw [escape_cons hopening hclosing]
      have hopening' : ¬ opening <+: c :: escape t := by
        rwa [opening_isInitial_iff, head?_escape, ← opening_isInitial_iff]
      have hclosing' : ¬ closing <+: c :: escape t := by
        rwa [closing_isInitial_iff, head?_escape, ← closing_isInitial_iff]
      refine ⟨_, .char hopening' hclosing' hreads, by simpa using hnames, ?_⟩
      intro values
      rw [List.flatMap_cons, hexpand]
      rfl

/-! ## What is rendered -/

lemma parse_of_reads {source : Text} {segments : List Segment} (h : Reads source segments) :
    Template.parse source = .ok (segments.foldl Template.push .empty) :=
  parseLoop_of_reads h .empty [] 0

/-- Escaped text is rendered as itself. A template that is accepted is rendered as its literals with the values
in place of the placeholders, and with nothing else done to them. -/
theorem escaped_text_and_values_verbatim :
    (∀ t, ∃ template, Template.parse (escape t) = .ok template ∧ template.render [] = .ok t) ∧
    ∀ source template, Template.parse source = .ok template →
      (∃ segments, Reads source segments) ∧
      ∀ segments, Reads source segments → ∀ values out, template.render values = .ok out ↔
        (values.map Prod.fst).Nodup ∧ (∀ name, name ∈ values.map Prod.fst ↔ .placeholder name ∈ segments) ∧
          out = segments.flatMap (Segment.expand values) := by
  have hrender {source : Text} {segments : List Segment} (hreads : Reads source segments) {template : Template}
      (hparse : Template.parse source = .ok template) (values : List (Text × Text)) (out : Text) :
      template.render values = .ok out ↔
        (values.map Prod.fst).Nodup ∧ (∀ name, name ∈ values.map Prod.fst ↔ .placeholder name ∈ segments) ∧
          out = segments.flatMap (Segment.expand values) := by
    rw [parse_of_reads hreads, Except.ok.injEq] at hparse
    obtain ⟨hnames, hexpand⟩ := foldl_push .empty segments
    rw [hparse] at hnames hexpand
    rw [Template.render_iff, hexpand]
    simp only [hnames]
    simp [Template.empty]
  constructor
  · intro t
    obtain ⟨segments, hreads, hnames, hexpand⟩ := exists_reads_escape t
    refine ⟨_, parse_of_reads hreads, (hrender hreads (parse_of_reads hreads) [] t).mpr ⟨List.nodup_nil, ?_, ?_⟩⟩
    · intro name
      simp [hnames name]
    · exact (hexpand []).symm
  · intro source template hparse
    refine ⟨exists_reads hparse, ?_⟩
    intro segments hreads
    exact hrender hreads hparse

/-- Runs of three and five braces. -/
example :
    let t := "\x7b\x7b\x7b a \x7d\x7d\x7d\x7d\x7d".toList
    escape t = "\x7b\x7b\x7b\x7b\x7b a \x7d\x7d\x7d\x7d\x7d\x7d\x7d\x7d\x7d".toList ∧
      render (escape t) [] = .ok t := by decide +kernel

end Supercodex.Templates
