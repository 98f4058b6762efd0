import Supercodex.Library.Effects
import Supercodex.ShellCommand.Bash
import Mathlib.Data.List.Perm.Basic
import Mathlib.Data.List.Sort

/-!
# The words that are classified and the words that bash runs

The words of a script are its source text without the quotes. Bash takes away more than the quotes: a
backslash outside quotes, and between double quotes one before a special character. The words are the
arguments that bash obtains exactly when no word holds such a backslash.
-/

namespace Supercodex.ShellCommand

open ShellQuoting

/-! ## The nodes of a tree -/

namespace Node

lemma mem_nodesOfAll {nodes : List Node} {n : Node} :
    n ∈ nodesOfAll nodes ↔ ∃ node ∈ nodes, n ∈ node.nodes := by
  induction nodes with
  | nil => simp [nodesOfAll]
  | cons node nodes ih => simp [nodesOfAll, ih]

lemma nodes_eq (node : Node) : node.nodes = node :: nodesOfAll node.children := by
  cases node
  rfl

lemma self_mem_nodes (node : Node) : node ∈ node.nodes := by
  rw [nodes_eq]
  exact List.mem_cons_self

lemma mem_nodes_trans {n c : Node} (hn : n ∈ c.nodes) : ∀ node : Node, c ∈ node.nodes → n ∈ node.nodes
  | mk kind startByte text children => by
    intro hc
    rw [nodes_eq] at hc
    rcases List.mem_cons.mp hc with rfl | hc
    · exact hn
    obtain ⟨child, hchild, hc⟩ := mem_nodesOfAll.mp hc
    have hchild' : child ∈ children := hchild
    rw [nodes_eq]
    exact List.mem_cons_of_mem _ (mem_nodesOfAll.mpr ⟨child, hchild, mem_nodes_trans hn child hc⟩)

lemma mem_nodes_of_mem_namedChildren {c node : Node} (hc : c ∈ node.namedChildren) :
    c ∈ node.nodes := by
  rw [nodes_eq]
  exact List.mem_cons_of_mem _
    (mem_nodesOfAll.mpr ⟨c, List.mem_of_mem_filter hc, self_mem_nodes c⟩)

/-- The commands of some trees. -/
def commandsOfAll (nodes : List Node) : List Node :=
  (nodesOfAll nodes).filter fun n => n.kind = .command

lemma nodesOfAll_append (nodes nodes' : List Node) :
    nodesOfAll (nodes ++ nodes') = nodesOfAll nodes ++ nodesOfAll nodes' := by
  induction nodes with
  | nil => rfl
  | cons node nodes ih => rw [List.cons_append, nodesOfAll, nodesOfAll, ih, List.append_assoc]

lemma nodesOfAll_reverse_perm (nodes : List Node) :
    (nodesOfAll nodes.reverse).Perm (nodesOfAll nodes) := by
  induction nodes with
  | nil => exact .refl _
  | cons node nodes ih =>
    rw [List.reverse_cons, nodesOfAll_append, nodesOfAll, nodesOfAll, nodesOfAll, List.append_nil]
    exact (ih.append_right _).trans List.perm_append_comm

end Node

open ShellCommand.Node

/-- The walk finds the commands of the trees, in an order of its own. -/
lemma collectCommands_perm {stack commandNodes found : List Node}
    (h : collectCommands stack commandNodes = some found) :
    found.Perm (commandNodes ++ commandsOfAll stack) := by
  fun_induction collectCommands stack commandNodes with
  | case1 commandNodes =>
    cases h
    simp [commandsOfAll, nodesOfAll]
  | case2 commandNodes node stack _ ih =>
    refine (ih h).trans ?_
    have hrest : (commandsOfAll (node.children.reverse ++ stack)).Perm
        (commandsOfAll node.children ++ commandsOfAll stack) := by
      rw [commandsOfAll, nodesOfAll_append, List.filter_append]
      exact ((nodesOfAll_reverse_perm node.children).filter _).append_right _
    have hnode : commandsOfAll (node :: stack) =
        (if node.kind = .command then [node] else []) ++
          (commandsOfAll node.children ++ commandsOfAll stack) := by
      rw [commandsOfAll, nodesOfAll, nodes_eq, List.filter_append, List.filter_cons]
      split_ifs <;> simp_all [commandsOfAll]
    rw [hnode]
    split_ifs
    · rw [List.append_assoc]
      exact hrest.append_left _ |>.append_left _
    · exact hrest.append_left _
  | case3 => cases h

/-- The walk goes on at every node. -/
lemma isAllowed_of_collectCommands {stack commandNodes found : List Node}
    (h : collectCommands stack commandNodes = some found) : ∀ n ∈ nodesOfAll stack, isAllowed n.kind = true := by
  fun_induction collectCommands stack commandNodes with
  | case1 => simp [nodesOfAll]
  | case2 commandNodes node stack hallowed ih =>
    have hrest := ih h
    rw [nodesOfAll_append, List.forall_mem_append] at hrest
    intro n hn
    rw [nodesOfAll, nodes_eq, List.cons_append, List.mem_cons, List.mem_append] at hn
    rcases hn with rfl | hn | hn
    · exact hallowed
    · exact hrest.1 n ((nodesOfAll_reverse_perm node.children).symm.subset hn)
    · exact hrest.2 n hn
  | case3 => cases h

/-- The commands are sorted back into source order. -/
lemma sorted_commandNodes {tree : SyntaxTree} (herror : tree.hasError = false) {found : List Node}
    (h : collectCommands [tree.root] [] = some found) :
    (found.mergeSort fun a b => decide (a.startByte ≤ b.startByte)) = tree.root.commandNodes := by
  have hperm : (found.mergeSort fun a b => decide (a.startByte ≤ b.startByte)).Perm
      tree.root.commandNodes := by
    refine (List.mergeSort_perm _ _).trans ((collectCommands_perm h).trans ?_)
    simp [commandsOfAll, nodesOfAll, commandNodes]
  have hordered := tree.ordered herror
  have hdistinct : (tree.root.commandNodes.map startByte).Nodup :=
    List.pairwise_map.mpr (hordered.imp fun hlt => hlt.ne)
  have hsorted : (found.mergeSort fun a b => decide (a.startByte ≤ b.startByte)).Pairwise
      fun a b => a.startByte ≤ b.startByte := by
    refine (List.pairwise_mergeSort ?_ ?_ found).imp of_decide_eq_true
    · intro a b c hab hbc
      simp only [decide_eq_true_eq] at *
      omega
    · intro a b
      simp only [Bool.or_eq_true, decide_eq_true_eq]
      omega
  refine hperm.eq_of_pairwise ?_ hsorted (hordered.imp fun hlt => hlt.le)
  intro a b ha hb hab hba
  exact List.inj_on_of_nodup_map hdistinct (hperm.subset ha) hb (by omega)

/-! ## One word -/

/-- A word and the text that it stands for are made of the same parts. -/
def MadeOf (source word : Text) : Prop :=
  ∃ pieces : List Piece, (∀ piece ∈ pieces, piece.Lexical) ∧ source = wordSource pieces ∧
    word = wordStripped pieces

lemma madeOf_piece {piece : Piece} (h : piece.Lexical) : MadeOf piece.source piece.stripped :=
  ⟨[piece], by simpa using h, by simp [wordSource], by simp [wordStripped]⟩

lemma MadeOf.append {source source' word word' : Text} (h : MadeOf source word)
    (h' : MadeOf source' word') : MadeOf (source ++ source') (word ++ word') := by
  obtain ⟨pieces, hlexical, rfl, rfl⟩ := h
  obtain ⟨pieces', hlexical', rfl, rfl⟩ := h'
  refine ⟨pieces ++ pieces', ?_, ?_, ?_⟩
  · rw [List.forall_mem_append]
    exact ⟨hlexical, hlexical'⟩
  · rw [wordSource, wordSource, wordSource, List.flatMap_append]
  · rw [wordStripped, wordStripped, wordStripped, List.flatMap_append]

lemma stripPrefix_cons (c : Char) (t : Text) : Text.stripPrefix [c] (c :: t) = some t := by
  simp [Text.stripPrefix]

lemma stripSuffix_concat (t : Text) (c : Char) : Text.stripSuffix [c] (t ++ [c]) = some t := by
  simp [Text.stripSuffix, Text.stripPrefix]

section

variable {node : Node} {word : Text}

/-- A node of an accepted tree, whose children the walk went on at. -/
structure Accepted (node : Node) : Prop where
  grammatical : node.Grammatical
  children : ∀ child ∈ node.children, isAllowed child.kind = true

lemma Accepted.bare (h : Accepted node) (hkind : node.kind = .word ∨ node.kind = .number) :
    MadeOf node.text node.text := by
  have hg := h.grammatical
  rcases hkind with hkind | hkind <;> rw [Grammatical, hkind] at hg
  · exact @madeOf_piece (.bare node.text) hg
  · exact @madeOf_piece (.bare node.text) (hg h.children)

lemma madeOf_of_parseDoubleQuotedString (hg : node.Grammatical)
    (h : parseDoubleQuotedString node = some word) : MadeOf node.text word := by
  rw [parseDoubleQuotedString] at h
  split_ifs at h with hkind hparts
  rw [not_not] at hkind
  rw [Grammatical, hkind] at hg
  obtain ⟨body, htext, hbody⟩ := hg (by simpa using hparts)
  rw [htext, Piece.source, stripPrefix_cons, Option.bind_some, stripSuffix_concat] at h
  cases h
  rw [htext]
  exact @madeOf_piece (.double _) hbody

lemma madeOf_of_parseRawString (hg : node.Grammatical) (h : parseRawString node = some word) :
    MadeOf node.text word := by
  rw [parseRawString] at h
  split_ifs at h with hkind
  rw [not_not] at hkind
  rw [Grammatical, hkind] at hg
  obtain ⟨body, htext, hbody⟩ := hg
  rw [htext, Piece.source, stripPrefix_cons, Option.bind_some, stripSuffix_concat] at h
  cases h
  rw [htext]
  exact @madeOf_piece (.single _) hbody

lemma madeOf_of_parsePart (hpart : Accepted node) (h : parsePart node = some word) :
    MadeOf node.text word := by
  rw [parsePart] at h
  split at h
  · rename_i hkind
    cases h
    exact hpart.bare (.inl hkind)
  · rename_i hkind
    cases h
    exact hpart.bare (.inr hkind)
  · exact madeOf_of_parseDoubleQuotedString hpart.grammatical h
  · exact madeOf_of_parseRawString hpart.grammatical h
  · cases h

lemma madeOf_of_mapM_parsePart {parts : List Node} (hparts : ∀ part ∈ parts, Accepted part)
    {words : List Text} (h : parts.mapM parsePart = some words) :
    MadeOf (parts.flatMap Node.text) words.flatten := by
  induction parts generalizing words with
  | nil =>
    cases h
    exact ⟨[], by simp, rfl, rfl⟩
  | cons part parts ih =>
    rw [List.forall_mem_cons] at hparts
    simp only [List.mapM_cons, Effects.bind_eq_some, Option.pure_def,
      Option.some.injEq] at h
    obtain ⟨word, hword, rest, hrest, rfl⟩ := h
    rw [List.flatMap_cons, List.flatten_cons]
    exact (madeOf_of_parsePart hparts.1 hword).append (ih hparts.2 hrest)

/-- A word is the text of its node without the quotes. -/
lemma madeOf_of_parseWord (hnodes : ∀ n ∈ node.nodes, Accepted n) (h : parseWord node = some word) :
    MadeOf node.text word := by
  have hself := hnodes node (self_mem_nodes node)
  have hg := hself.grammatical
  have hchildren : ∀ c ∈ node.namedChildren, Accepted c := fun c hc =>
    hnodes c (mem_nodes_of_mem_namedChildren hc)
  rw [parseWord] at h
  split at h
  · rename_i hkind
    rw [Grammatical, hkind] at hg
    obtain ⟨child, hnamed, htext⟩ := hg
    rw [hnamed] at h hchildren
    simp only [List.head?_cons, Option.bind_eq_bind, Option.bind_some] at h
    split_ifs at h with hword
    cases h
    rw [htext]
    exact (hchildren child (List.mem_singleton_self _)).bare (.inl hword)
  · rename_i hkind
    cases h
    exact hself.bare (.inl hkind)
  · rename_i hkind
    cases h
    exact hself.bare (.inr hkind)
  · exact madeOf_of_parseDoubleQuotedString hg h
  · exact madeOf_of_parseRawString hg h
  · rename_i hkind
    rw [Grammatical, hkind] at hg
    simp only [Effects.bind_eq_some] at h
    obtain ⟨parts, hparts, h⟩ := h
    split_ifs at h with hempty
    cases h
    rw [hg hself.children]
    exact madeOf_of_mapM_parsePart hchildren hparts
  · cases h

lemma word_eq_iff (hnodes : ∀ n ∈ node.nodes, Accepted n) (h : parseWord node = some word) :
    word = quoteRemoval .unquoted node.text ↔ dropsBackslash .unquoted node.text = false := by
  obtain ⟨pieces, hlexical, hsource, rfl⟩ := madeOf_of_parseWord hnodes h
  rw [hsource]
  exact wordStripped_eq_iff hlexical

end

/-! ## All words -/

lemma mapM_eq_map_iff {α β : Type} {f : α → Option β} {g : α → β} {P : α → Prop} {l : List α}
    (hf : ∀ a ∈ l, ∀ b, f a = some b → (b = g a ↔ P a)) {bs : List β} (h : l.mapM f = some bs) :
    bs = l.map g ↔ ∀ a ∈ l, P a := by
  induction l generalizing bs with
  | nil =>
    cases h
    simp
  | cons a l ih =>
    rw [List.forall_mem_cons] at hf ⊢
    simp only [List.mapM_cons, Effects.bind_eq_some, Option.pure_def,
      Option.some.injEq] at h
    obtain ⟨b, hb, rest, hrest, rfl⟩ := h
    rw [List.map_cons, List.cons.injEq, hf.1 b hb, ih hf.2 hrest]

/-- Does no word of a command hold a backslash that quote removal takes away? -/
def KeepsBackslashes (cmd : Node) : Prop :=
  ∀ child ∈ cmd.namedChildren, dropsBackslash .unquoted child.text = false

/-- The words of an accepted script are the argument lists of its simple commands, in source order and
after quote removal, exactly when no word holds a backslash that quote removal takes away. -/
theorem commands_eq_bashCommands_iff (tree : SyntaxTree) (commands : List (List Text))
    (h : tryParseWordOnlyCommandsSequence tree = some commands) :
    commands = bashCommands tree ↔ ∀ cmd ∈ tree.root.commandNodes, KeepsBackslashes cmd := by
  rw [tryParseWordOnlyCommandsSequence] at h
  split_ifs at h with herror
  rw [Bool.not_eq_true] at herror
  simp only [Effects.bind_eq_some] at h
  obtain ⟨found, hfound, h⟩ := h
  have hnodes : ∀ n ∈ tree.root.nodes, Accepted n := by
    intro n hn
    refine ⟨tree.grammatical herror n hn, fun child hchild => isAllowed_of_collectCommands hfound child ?_⟩
    have hchild' : child ∈ n.nodes := by
      rw [nodes_eq]
      exact List.mem_cons_of_mem _ (mem_nodesOfAll.mpr ⟨child, hchild, self_mem_nodes child⟩)
    exact mem_nodesOfAll.mpr ⟨_, List.mem_singleton_self _, mem_nodes_trans hchild' tree.root hn⟩
  rw [sorted_commandNodes herror hfound] at h
  refine mapM_eq_map_iff (fun cmd hcmd words hwords => ?_) h
  rw [parsePlainCommandFromNode] at hwords
  split_ifs at hwords
  refine mapM_eq_map_iff (fun child hchild word hword => ?_) hwords
  have hcmd' : cmd ∈ tree.root.nodes := List.mem_of_mem_filter hcmd
  have hchild' := mem_nodes_trans (mem_nodes_of_mem_namedChildren hchild) tree.root hcmd'
  exact word_eq_iff (fun n hn => hnodes n (mem_nodes_trans hn tree.root hchild')) hword

/-! ## Sample scripts -/

/-- The node of a word. -/
def wordNode (startByte : ℕ) (text : Text) : Node := .mk .word startByte text []

/-- The script `rg -g"a\b" && ls 'c\d'`. -/
def sampleQuoted : Node :=
  .mk .program 0 "rg -g\"a\\b\" && ls 'c\\d'".toList [.mk .list 0 "rg -g\"a\\b\" && ls 'c\\d'".toList
    [.mk .command 0 "rg -g\"a\\b\"".toList
      [.mk .commandName 0 "rg".toList [wordNode 0 "rg".toList],
        .mk .concatenation 3 "-g\"a\\b\"".toList [wordNode 3 "-g".toList,
          .mk .string 5 "\"a\\b\"".toList [.mk (.token "\"".toList) 5 "\"".toList [],
            .mk .stringContent 6 "a\\b".toList [], .mk (.token "\"".toList) 9 "\"".toList []]]],
      .mk (.token "&&".toList) 11 "&&".toList [],
      .mk .command 14 "ls 'c\\d'".toList
        [.mk .commandName 14 "ls".toList [wordNode 14 "ls".toList], .mk .rawString 17 "'c\\d'".toList []]]]

/-- The script `find . -e\xec`. -/
def sampleEscaped : Node :=
  .mk .program 0 "find . -e\\xec".toList [.mk .command 0 "find . -e\\xec".toList
    [.mk .commandName 0 "find".toList [wordNode 0 "find".toList], wordNode 5 ".".toList,
      wordNode 7 "-e\\xec".toList]]

/-- The parse tree of the first script. -/
def sampleQuotedTree : SyntaxTree where
  root := sampleQuoted
  hasError := false
  grammatical := by
    intro _ node hnode
    simp only [sampleQuoted, wordNode, nodes, nodesOfAll, List.cons_append, List.nil_append,
      List.append_nil, List.mem_cons, List.not_mem_nil, or_false] at hnode
    rcases hnode with rfl | rfl | rfl | rfl | rfl | rfl | rfl | rfl | rfl | rfl | rfl | rfl | rfl | rfl |
      rfl | rfl
    · trivial
    · trivial
    · trivial
    · exact ⟨_, rfl, rfl⟩
    · show Bare "rg".toList
      decide
    · exact fun _ => rfl
    · show Bare "-g".toList
      decide
    · exact fun _ => ⟨"a\\b".toList, rfl, by decide⟩
    · trivial
    · trivial
    · trivial
    · trivial
    · trivial
    · exact ⟨_, rfl, rfl⟩
    · show Bare "ls".toList
      decide
    · exact ⟨"c\\d".toList, rfl, by decide⟩
  ordered := by
    intro _
    exact List.pairwise_pair.mpr (by decide)

/-- The parse tree of the second script. -/
def sampleEscapedTree : SyntaxTree where
  root := sampleEscaped
  hasError := false
  grammatical := by
    intro _ node hnode
    simp only [sampleEscaped, wordNode, nodes, nodesOfAll, List.cons_append, List.nil_append,
      List.append_nil, List.mem_cons, List.not_mem_nil, or_false] at hnode
    rcases hnode with rfl | rfl | rfl | rfl | rfl | rfl
    · trivial
    · trivial
    · exact ⟨_, rfl, rfl⟩
    · show Bare "find".toList
      decide
    · show Bare ".".toList
      decide
    · show Bare "-e\\xec".toList
      decide
  ordered := by
    intro _
    exact List.pairwise_singleton _ _

lemma parse_sampleQuoted : tryParseWordOnlyCommandsSequence sampleQuotedTree =
    some [["rg".toList, "-ga\\b".toList], ["ls".toList, "c\\d".toList]] := by
  obtain ⟨found, hfound⟩ : ∃ found, collectCommands [sampleQuotedTree.root] [] = some found := by
    simp [sampleQuotedTree, sampleQuoted, collectCommands, isAllowed, allowedKinds, allowedPunctTokens,
      kind, children, wordNode]
  rw [tryParseWordOnlyCommandsSequence, hfound]
  show (found.mergeSort _).mapM parsePlainCommandFromNode = _
  rw [sorted_commandNodes rfl hfound]
  decide +kernel

/-- Two commands, with a backslash before an ordinary character between double quotes and one between
single quotes. -/
theorem commands_eq_bashCommands_quoted :
    [["rg".toList, "-ga\\b".toList], ["ls".toList, "c\\d".toList]] = bashCommands sampleQuotedTree := by
  refine (commands_eq_bashCommands_iff sampleQuotedTree _ parse_sampleQuoted).mpr ?_
  show ∀ cmd ∈ sampleQuoted.commandNodes, ∀ child ∈ cmd.namedChildren,
    dropsBackslash .unquoted child.text = false
  decide +kernel

/-- Bash runs `find . -exec`, and the words are `find . -e\xec`. -/
theorem escaped_word_kept :
    tryParseWordOnlyCommandsSequence sampleEscapedTree =
        some [["find".toList, ".".toList, "-e\\xec".toList]] ∧
      bashCommands sampleEscapedTree = [["find".toList, ".".toList, "-exec".toList]] := by
  refine ⟨?_, by decide⟩
  simp [tryParseWordOnlyCommandsSequence, sampleEscapedTree, sampleEscaped, collectCommands, isAllowed,
    allowedKinds, kind, children, wordNode, parsePlainCommandFromNode, namedChildren,
    NodeKind.isNamed, parseWord, text]

end Supercodex.ShellCommand
