import Supercodex.LinuxSandbox.Bwrap
import Supercodex.Permissions.PolicyTheorems
import Mathlib.Data.List.Dedup

/-!
# The bubblewrap mounts and the policy

The arguments are turned into layers over the host's tree. What is writable through them is
writable by the policy. What is readable through them is readable by the policy unless a git
directory is mounted again after a denied path below it was masked, and a protected path that is
missing cannot be created unless it belongs to a working directory that is missing as well.
-/

namespace Supercodex.LinuxSandbox

open Supercodex.Path Permissions Layer FileSystemSandboxPolicy FileTree

/-! ## Mount points -/

section MountPoints

variable (env : Env) (allowed : List AbsolutePath)

/-- Where the protection of a path is mounted: its first missing component, or the path. -/
def mountPoint (path : AbsolutePath) : AbsolutePath :=
  (findFirstNonExistentComponent env path).getD path

variable {env}

lemma pathExists_above {p q : AbsolutePath} (hq : env.tree.pathExists q = true)
    (hpq : p <+: q) : env.tree.pathExists p = true := by
  unfold pathExists at hq ⊢
  rw [Option.isSome_iff_ne_none] at hq ⊢
  by_cases heq : p = q
  · rw [heq]
    exact hq
  · rw [env.tree.isDir_of_prefix hq hpq heq]
    simp

variable {path : AbsolutePath}

lemma findFirst_eq_none (h : env.tree.pathExists path = true) :
    findFirstNonExistentComponent env path = none := by
  unfold findFirstNonExistentComponent
  rw [List.find?_eq_none]
  intro current hcurrent
  rw [List.mem_inits] at hcurrent
  simp [pathExists_above h hcurrent]

lemma mountPoint_of_exists (h : env.tree.pathExists path = true) :
    mountPoint env path = path := by
  rw [mountPoint, findFirst_eq_none h, Option.getD_none]

lemma findFirst_eq_mountPoint (h : env.tree.pathExists path = false) :
    findFirstNonExistentComponent env path = some (mountPoint env path) ∧
      mountPoint env path <+: path ∧ env.tree.pathExists (mountPoint env path) = false := by
  unfold mountPoint
  cases hfind : findFirstNonExistentComponent env path with
  | none =>
    unfold findFirstNonExistentComponent at hfind
    rw [List.find?_eq_none] at hfind
    have hself := hfind path ((List.mem_inits _ _).mpr (List.prefix_refl path))
    rw [h] at hself
    exact absurd rfl hself
  | some m =>
    refine ⟨rfl, ?_, ?_⟩
    · exact (List.mem_inits _ _).mp (List.mem_of_find?_eq_some hfind)
    · have hm := List.find?_some hfind
      simpa using hm

lemma mountPoint_isInitial (path : AbsolutePath) : mountPoint env path <+: path := by
  cases h : env.tree.pathExists path with
  | true => rw [mountPoint_of_exists h]
  | false => exact (findFirst_eq_mountPoint h).2.1

lemma exists_of_mountPoint {path p : AbsolutePath} (hp : env.tree.pathExists p = true)
    (h : mountPoint env path <+: p) :
    env.tree.pathExists path = true ∧ mountPoint env path = path := by
  cases hpath : env.tree.pathExists path with
  | true => exact ⟨rfl, mountPoint_of_exists hpath⟩
  | false =>
    have hmissing := (findFirst_eq_mountPoint hpath).2.2
    rw [pathExists_above hp h] at hmissing
    cases hmissing

lemma le_mountPoint {root path : AbsolutePath} (hroot : env.tree.pathExists root = true)
    (h : root <+: path) : root <+: mountPoint env path := by
  cases hpath : env.tree.pathExists path with
  | true =>
    rw [mountPoint_of_exists hpath]
    exact h
  | false =>
    obtain ⟨-, hinit, hmissing⟩ := findFirst_eq_mountPoint hpath
    rcases List.prefix_or_prefix_of_prefix h hinit with hle | hle
    · exact hle
    · rw [pathExists_above hroot hle] at hmissing
      cases hmissing

lemma isWithin_iff :
    isWithinAllowedWritePaths path allowed = true ↔ ∃ root ∈ allowed, root <+: path := by
  unfold isWithinAllowedWritePaths
  simp [List.isPrefixOf_iff_prefix]

end MountPoints

/-! ## Layers -/

variable {u : AbsolutePath}

section Layers

variable (env : Env) (allowed unreadable : List AbsolutePath)

/-- The layers of arguments. -/
def layersOf (args : List BwrapArg) : List (Layer Text Exposure) := args.filterMap BwrapArg.layer

/-- The layers of `readOnlySubpathArgs`. -/
def readOnlyLayers (subpath : AbsolutePath) : List (Layer Text Exposure) :=
  layersOf (readOnlySubpathArgs env allowed subpath)

/-- The layers of `unreadableRootArgs`, when it succeeds. -/
def maskLayers (u : AbsolutePath) : List (Layer Text Exposure) :=
  if env.tree.pathExists u then [⟨u, if env.tree.isDir u then .hidden else .replaced⟩]
  else layersOf (missingPathArgs env allowed u)

/-- The layers that protect the subpaths of a writable root. -/
def protectionLayers (w : WritableRoot) : List (Layer Text Exposure) :=
  (sortByDepth (w.readOnlySubpaths.filter fun path => path ∉ unreadable)).flatMap
      (readOnlyLayers env allowed) ++
    (sortByDepth (unreadable.filter fun path => w.root.isPrefixOf path)).flatMap
      (maskLayers env allowed)

/-- The layers of a writable root. -/
def rootLayers (w : WritableRoot) : List (Layer Text Exposure) :=
  [⟨w.root, .writable⟩] ++ protectionLayers env allowed unreadable w

lemma layersOf_append (args args' : List BwrapArg) :
    layersOf (args ++ args') = layersOf args ++ layersOf args' := List.filterMap_append

lemma layersOf_flatMap {γ : Type} (xs : List γ) (f : γ → List BwrapArg) :
    layersOf (xs.flatMap f) = xs.flatMap fun x => layersOf (f x) := by
  induction xs with
  | nil => rfl
  | cons x xs ih => rw [List.flatMap_cons, layersOf_append, ih, List.flatMap_cons]

lemma layersOf_roBind (src dst : AbsolutePath) :
    layersOf [.roBind src dst] = [⟨dst, if src = dst then .readOnly else .replaced⟩] := rfl

lemma layersOf_mountTargetParentDirArgs (target anchor : AbsolutePath) :
    layersOf (mountTargetParentDirArgs env target anchor) = [] := by
  unfold mountTargetParentDirArgs layersOf
  dsimp only
  split
  · rw [List.filterMap_map]
    simp [BwrapArg.layer]
  · rfl

variable {env allowed unreadable} {args : List BwrapArg}

lemma layersOf_unreadableRootArgs (h : unreadableRootArgs env allowed u = .ok args) :
    layersOf args = maskLayers env allowed u := by
  unfold unreadableRootArgs at h
  unfold maskLayers
  cases hexists : env.tree.pathExists u with
  | false =>
    rw [hexists] at h
    rw [if_neg Bool.false_ne_true, ← Except.ok.inj h]
  | true =>
    rw [hexists, Bool.not_true, if_neg Bool.false_ne_true] at h
    rw [if_pos rfl]
    unfold existingUnreadablePathArgs at h
    split at h
    · rename_i hdir
      have hdirs : ∀ paths : List AbsolutePath,
          layersOf (paths.flatMap (mountTargetParentDirArgs env · u)) = [] := by
        intro paths
        rw [layersOf_flatMap, List.flatMap_eq_nil_iff]
        exact fun path _ => layersOf_mountTargetParentDirArgs env path u
      rw [if_pos hdir, ← Except.ok.inj h, layersOf_append, layersOf_append, hdirs]
      rfl
    · rename_i hdir
      rw [if_neg hdir]
      split at h
      · rw [← Except.ok.inj h]
        rfl
      · cases h

lemma layersOf_mapM {γ : Type} {f : γ → Except BwrapError (List BwrapArg)}
    {layers : γ → List (Layer Text Exposure)}
    (hf : ∀ x args, f x = .ok args → layersOf args = layers x) {xs : List γ}
    {parts : List (List BwrapArg)} (h : xs.mapM f = .ok parts) :
    layersOf parts.flatten = xs.flatMap layers := by
  induction xs generalizing parts with
  | nil =>
    rw [← Except.ok.inj h]
    rfl
  | cons x xs ih =>
    rw [List.mapM_cons] at h
    cases hx : f x with
    | error e =>
      rw [hx] at h
      cases h
    | ok args =>
      rw [hx] at h
      cases hxs : xs.mapM f with
      | error e =>
        rw [hxs] at h
        cases h
      | ok rest =>
        rw [hxs] at h
        rw [← Except.ok.inj h, List.flatten_cons, layersOf_append, hf x args hx, ih hxs,
          List.flatMap_cons]

lemma layersOf_unreadableRootsArgs {us : List AbsolutePath}
    (h : unreadableRootsArgs env allowed us = .ok args) :
    layersOf args = us.flatMap (maskLayers env allowed) := by
  unfold unreadableRootsArgs at h
  cases hparts : us.mapM (unreadableRootArgs env allowed) with
  | error e =>
    rw [hparts] at h
    cases h
  | ok parts =>
    rw [hparts] at h
    rw [← Except.ok.inj h]
    exact layersOf_mapM (fun _ _ hx => layersOf_unreadableRootArgs hx) hparts

lemma layersOf_writableRootArgs {w : WritableRoot}
    (h : writableRootArgs env allowed unreadable w = .ok args) :
    layersOf args = rootLayers env allowed unreadable w := by
  unfold writableRootArgs at h
  dsimp only at h
  generalize hnested : unreadableRootsArgs env allowed
    (sortByDepth (unreadable.filter fun path => w.root.isPrefixOf path)) = masks at h
  cases masks with
  | error e => cases h
  | ok masks =>
    have hparents : layersOf (maskedParentDirArgs env unreadable w.root) = [] := by
      unfold maskedParentDirArgs
      split
      · exact layersOf_mountTargetParentDirArgs env _ _
      · rfl
    have hbind : layersOf [.bind w.root w.root] = [⟨w.root, .writable⟩] := by
      simp [layersOf, BwrapArg.layer]
    rw [← Except.ok.inj h, layersOf_append, layersOf_append, layersOf_append, hparents, hbind,
      layersOf_flatMap, layersOf_unreadableRootsArgs hnested, rootLayers, protectionLayers,
      List.nil_append, List.append_assoc]
    rfl

end Layers

/-! ## What the layers of a path do -/

section LayerSpecs

variable {env : Env} {allowed unreadable : List AbsolutePath} {layer : Layer Text Exposure}

variable {path : AbsolutePath}

lemma mem_layersOf_missingPathArgs (hpath : env.tree.pathExists path = false)
    (h : layer ∈ layersOf (missingPathArgs env allowed path)) :
    layer.target = mountPoint env path ∧
      isWithinAllowedWritePaths (mountPoint env path) allowed = true ∧
      layer.content ≠ .writable := by
  unfold missingPathArgs at h
  rw [(findFirst_eq_mountPoint hpath).1] at h
  dsimp only at h
  split at h
  · rename_i hwithin
    rw [layersOf_roBind, List.mem_singleton] at h
    rw [h]
    refine ⟨rfl, hwithin, ?_⟩
    split
    · simp
    · simp
  · cases h

lemma exists_mem_layersOf_missingPathArgs (hpath : env.tree.pathExists path = false)
    (hwithin : isWithinAllowedWritePaths (mountPoint env path) allowed = true) :
    ∃ layer ∈ layersOf (missingPathArgs env allowed path),
      layer.target = mountPoint env path := by
  unfold missingPathArgs
  rw [(findFirst_eq_mountPoint hpath).1]
  dsimp only
  rw [if_pos hwithin, layersOf_roBind]
  exact ⟨_, List.mem_singleton_self _, rfl⟩

/-- What a read-only subpath puts over the tree. -/
structure ReadOnlyLayer (env : Env) (allowed : List AbsolutePath) (path : AbsolutePath)
    (layer : Layer Text Exposure) : Prop where
  target : layer.target = mountPoint env path
  within : isWithinAllowedWritePaths (mountPoint env path) allowed = true
  ne_writable : layer.content ≠ .writable
  readOnly : env.tree.pathExists path = true → layer.content = .readOnly

lemma readOnlyLayer_of_mem (h : layer ∈ readOnlyLayers env allowed path)
    : ReadOnlyLayer env allowed path layer := by
  unfold readOnlyLayers readOnlySubpathArgs at h
  cases hpath : env.tree.pathExists path with
  | false =>
    rw [hpath, Bool.not_false, if_pos rfl] at h
    obtain ⟨htarget, hwithin, hne⟩ := mem_layersOf_missingPathArgs hpath h
    exact ⟨htarget, hwithin, hne, fun hexists => by rw [hpath] at hexists; cases hexists⟩
  | true =>
    rw [hpath, Bool.not_true, if_neg Bool.false_ne_true] at h
    split at h
    · rename_i hwithin
      rw [layersOf_roBind, if_pos rfl, List.mem_singleton] at h
      rw [h]
      refine ⟨(mountPoint_of_exists hpath).symm, ?_, by simp, fun _ => rfl⟩
      rw [mountPoint_of_exists hpath]
      exact hwithin
    · cases h

lemma exists_mem_readOnlyLayers
    (hwithin : isWithinAllowedWritePaths (mountPoint env path) allowed = true) :
    ∃ layer ∈ readOnlyLayers env allowed path, layer.target = mountPoint env path := by
  unfold readOnlyLayers readOnlySubpathArgs
  cases hpath : env.tree.pathExists path with
  | false =>
    rw [Bool.not_false, if_pos rfl]
    exact exists_mem_layersOf_missingPathArgs hpath hwithin
  | true =>
    rw [mountPoint_of_exists hpath] at hwithin ⊢
    rw [Bool.not_true, if_neg Bool.false_ne_true, if_pos hwithin]
    rw [layersOf_roBind]
    exact ⟨_, List.mem_singleton_self _, rfl⟩

/-- What a denied path puts over the tree. -/
structure MaskLayer (env : Env) (allowed : List AbsolutePath) (path : AbsolutePath)
    (layer : Layer Text Exposure) : Prop where
  target : layer.target = mountPoint env path
  within : env.tree.pathExists path = false →
    isWithinAllowedWritePaths (mountPoint env path) allowed = true
  ne_writable : layer.content ≠ .writable
  ne_readOnly : env.tree.pathExists path = true → layer.content ≠ .readOnly

lemma maskLayer_of_mem (h : layer ∈ maskLayers env allowed path) :
    MaskLayer env allowed path layer := by
  unfold maskLayers at h
  cases hpath : env.tree.pathExists path with
  | false =>
    rw [hpath, if_neg Bool.false_ne_true] at h
    obtain ⟨htarget, hwithin, hne⟩ := mem_layersOf_missingPathArgs hpath h
    exact ⟨htarget, fun _ => hwithin, hne, fun hexists => by rw [hpath] at hexists; cases hexists⟩
  | true =>
    rw [hpath, if_pos rfl, List.mem_singleton] at h
    rw [h]
    refine ⟨(mountPoint_of_exists hpath).symm, ?_, ?_, ?_⟩
    · intro hmissing
      rw [hpath] at hmissing
      cases hmissing
    · dsimp only
      split
      · simp
      · simp
    · intro _
      split
      · simp
      · simp

lemma exists_mem_maskLayers (allowed : List AbsolutePath) (h : env.tree.pathExists path = true ∨
      isWithinAllowedWritePaths (mountPoint env path) allowed = true) :
    ∃ layer ∈ maskLayers env allowed path, layer.target = mountPoint env path := by
  unfold maskLayers
  cases hpath : env.tree.pathExists path with
  | false =>
    rw [hpath] at h
    rw [if_neg Bool.false_ne_true]
    exact exists_mem_layersOf_missingPathArgs hpath (h.resolve_left Bool.false_ne_true)
  | true =>
    rw [if_pos rfl, mountPoint_of_exists hpath]
    exact ⟨_, List.mem_singleton_self _, rfl⟩

variable {p : AbsolutePath}

lemma mem_sortByDepth {paths : List AbsolutePath} :
    p ∈ sortByDepth paths ↔ p ∈ paths := List.mem_insertionSort _

variable {w : WritableRoot}

lemma mem_protectionLayers :
    layer ∈ protectionLayers env allowed unreadable w ↔
      (∃ c ∈ w.readOnlySubpaths, c ∉ unreadable ∧ layer ∈ readOnlyLayers env allowed c) ∨
      ∃ u ∈ unreadable, w.root <+: u ∧ layer ∈ maskLayers env allowed u := by
  unfold protectionLayers
  simp only [List.mem_append, List.mem_flatMap, mem_sortByDepth, List.mem_filter,
    decide_eq_true_eq, List.isPrefixOf_iff_prefix, and_assoc]

lemma view_protectionLayers_of_mask (hu : u ∈ unreadable)
    (hwu : w.root <+: u) (hexists : env.tree.pathExists u = true) (hup : u <+: p) :
    view (protectionLayers env allowed unreadable w) p ≠ none := by
  intro hnone
  rw [view_eq_none_iff] at hnone
  obtain ⟨layer, hlayer, htarget⟩ := exists_mem_maskLayers allowed (Or.inl hexists)
  rw [mountPoint_of_exists hexists] at htarget
  refine hnone layer (mem_protectionLayers.mpr (Or.inr ⟨u, hu, hwu, hlayer⟩)) ?_
  rw [htarget]
  exact hup

lemma view_rootLayers_eq_none_iff :
    view (rootLayers env allowed unreadable w) p = none ↔
      view (protectionLayers env allowed unreadable w) p = none ∧ ¬ w.root <+: p := by
  rw [rootLayers, view_append, view_singleton, Option.or_eq_none_iff]
  simp

/-- The exposures that the policy has to allow at a path. -/
def Exposed (env : Env) (p : AbsolutePath) (x : Exposure) : Prop :=
  x = .writable ∨ (x = .readOnly ∧ env.tree.pathExists p = true)

lemma view_maskLayers_ne {us : List AbsolutePath} {x : Exposure}
    (hx : Exposed env p x) : view (us.flatMap (maskLayers env allowed)) p ≠ some x := by
  intro h
  obtain ⟨layer, hmem, htarget, hcontent⟩ := exists_of_view h
  obtain ⟨u, -, hlayer⟩ := List.mem_flatMap.mp hmem
  have hmask := maskLayer_of_mem hlayer
  rcases hx with hx | ⟨hx, hp⟩
  · exact hmask.ne_writable (hcontent.trans hx)
  · rw [hmask.target] at htarget
    exact hmask.ne_readOnly (exists_of_mountPoint hp htarget).1 (hcontent.trans hx)

/-- What a writable root exposes: itself where no protection lies, or a read-only subpath where no
mask of the root lies. -/
lemma exposed_by_root {x : Exposure} (hx : Exposed env p x)
    (h : view (rootLayers env allowed unreadable w) p = some x) :
    (x = .writable ∧ w.root <+: p ∧
      view (protectionLayers env allowed unreadable w) p = none) ∨
    (x = .readOnly ∧ env.tree.pathExists p = true ∧
      (∀ u ∈ unreadable, w.root <+: u → ¬ u <+: p) ∧
      ∃ c ∈ w.readOnlySubpaths, c <+: p ∧ isWithinAllowedWritePaths c allowed = true) := by
  rw [rootLayers, view_append, Option.or_eq_some_iff] at h
  rcases h with h | ⟨hnone, h⟩
  · right
    rw [protectionLayers, view_append, Option.or_eq_some_iff] at h
    rcases h with h | ⟨hmasks, h⟩
    · exact absurd h (view_maskLayers_ne hx)
    obtain ⟨layer, hmem, htarget, hcontent⟩ := exists_of_view h
    obtain ⟨c, hc, hlayer⟩ := List.mem_flatMap.mp hmem
    have hro := readOnlyLayer_of_mem hlayer
    have hxp : x = .readOnly ∧ env.tree.pathExists p = true := by
      refine hx.resolve_left ?_
      intro hw
      exact hro.ne_writable (hcontent.trans hw)
    rw [hro.target] at htarget
    obtain ⟨-, hmount⟩ := exists_of_mountPoint hxp.2 htarget
    have hwithin := hro.within
    rw [hmount] at htarget hwithin
    rw [mem_sortByDepth] at hc
    refine ⟨hxp.1, hxp.2, ?_, c, List.mem_of_mem_filter hc, htarget, hwithin⟩
    intro u hu hwu hup
    rw [view_eq_none_iff] at hmasks
    have hexists := pathExists_above hxp.2 hup
    obtain ⟨layer, hlayer, htarget⟩ := exists_mem_maskLayers allowed (Or.inl hexists)
    rw [mountPoint_of_exists hexists] at htarget
    refine hmasks layer (List.mem_flatMap.mpr ⟨u, ?_, hlayer⟩) (htarget ▸ hup)
    rw [mem_sortByDepth, List.mem_filter, List.isPrefixOf_iff_prefix]
    exact ⟨hu, hwu⟩
  · left
    rw [view_singleton] at h
    split at h
    · rename_i hroot
      exact ⟨(Option.some.inj h).symm, hroot, hnone⟩
    · cases h

end LayerSpecs

/-! ## The layers of the whole view -/

section View

variable (policy : FileSystemSandboxPolicy) (env : Env) (cwd : AbsolutePath)

/-- The denied paths of a policy without globs. -/
def deniedRoots : List AbsolutePath := sortedUnreadableRoots policy env cwd []

/-- The paths of the writable roots that are mounted. -/
def allowedRoots : List AbsolutePath := (existingWritableRoots policy env cwd).map (·.root)

/-- The denied paths around writable roots and outside all of them. -/
def ancestorRoots : List AbsolutePath :=
  sortByDepth ((deniedRoots policy env cwd).filter fun path =>
    !(allowedRoots policy env cwd).any (·.isPrefixOf path) &&
      (allowedRoots policy env cwd).any (path.isPrefixOf ·))

/-- The denied paths without a writable root above or below. -/
def rootlessRoots : List AbsolutePath :=
  sortByDepth ((deniedRoots policy env cwd).filter fun path =>
    !(allowedRoots policy env cwd).any fun root => root.isPrefixOf path || path.isPrefixOf root)

/-- The layers of the mounted writable roots. -/
def mountedLayers (w : WritableRoot) : List (Layer Text Exposure) :=
  rootLayers env (allowedRoots policy env cwd) (deniedRoots policy env cwd) w

variable {policy env cwd}
variable {scan : List Text → AbsolutePath → Option ℕ → Except BwrapError (List AbsolutePath)}
  {depth : Option ℕ} {args : List BwrapArg} {p : AbsolutePath} {x : Exposure}

/-- The arguments show the masks of paths without a root over the writable roots, these over the
masks around them, and these over the base. -/
lemma exposure_eq (hglobs : NoGlobs policy.entries)
    (h : createFilesystemArgs policy env cwd scan depth = .ok args) (p : AbsolutePath) :
    exposure args p =
      (view ((rootlessRoots policy env cwd).flatMap
        (maskLayers env (allowedRoots policy env cwd))) p).or
      ((view ((sortedWritableRoots policy env cwd).flatMap (mountedLayers policy env cwd)) p).or
      ((view ((ancestorRoots policy env cwd).flatMap
        (maskLayers env (allowedRoots policy env cwd))) p).or
        (view (layersOf (baseArgs policy env cwd)) p))) := by
  unfold createFilesystemArgs at h
  rw [getUnreadableGlobs_eq_nil hglobs] at h
  change (do
    let ancestorMasks ← unreadableRootsArgs env (allowedRoots policy env cwd)
      (ancestorRoots policy env cwd)
    let rootArgs ← (sortedWritableRoots policy env cwd).mapM
      (writableRootArgs env (allowedRoots policy env cwd) (deniedRoots policy env cwd))
    let rootlessMasks ← unreadableRootsArgs env (allowedRoots policy env cwd)
      (rootlessRoots policy env cwd)
    return baseArgs policy env cwd ++ ancestorMasks ++ rootArgs.flatten ++ rootlessMasks :
      Except BwrapError (List BwrapArg)) = .ok args at h
  cases hanc : unreadableRootsArgs env (allowedRoots policy env cwd)
      (ancestorRoots policy env cwd) with
  | error e =>
    rw [hanc] at h
    cases h
  | ok ancestorMasks =>
  cases hroots : (sortedWritableRoots policy env cwd).mapM
      (writableRootArgs env (allowedRoots policy env cwd) (deniedRoots policy env cwd)) with
  | error e =>
    rw [hanc, hroots] at h
    cases h
  | ok rootArgs =>
  cases hrootless : unreadableRootsArgs env (allowedRoots policy env cwd)
      (rootlessRoots policy env cwd) with
  | error e =>
    rw [hanc, hroots, hrootless] at h
    cases h
  | ok rootlessMasks =>
    rw [hanc, hroots, hrootless] at h
    have hargs : args = baseArgs policy env cwd ++ ancestorMasks ++ rootArgs.flatten ++
      rootlessMasks := (Except.ok.inj h).symm
    show view (layersOf args) p = _
    rw [hargs, layersOf_append, layersOf_append, layersOf_append, view_append,
      view_append, view_append, layersOf_unreadableRootsArgs hrootless,
      layersOf_unreadableRootsArgs hanc,
      layersOf_mapM (fun _ _ hw => layersOf_writableRootArgs hw) hroots]
    rfl

lemma mem_deniedRoots :
    u ∈ deniedRoots policy env cwd ↔ u ∈ policy.getUnreadableRootsWithCwd env cwd := by
  unfold deniedRoots sortedUnreadableRoots
  rw [List.mem_dedup, List.mem_insertionSort, List.append_nil]

variable {w : WritableRoot}

lemma mem_existingWritableRoots (hglobs : NoGlobs policy.entries) :
    w ∈ existingWritableRoots policy env cwd ↔
      w ∈ policy.getWritableRootsWithCwd env cwd ∧ env.tree.pathExists w.root = true := by
  unfold existingWritableRoots
  rw [getUnreadableGlobs_eq_nil hglobs]
  simp

lemma mem_sortedWritableRoots (hglobs : NoGlobs policy.entries) :
    w ∈ sortedWritableRoots policy env cwd ↔
      w ∈ policy.getWritableRootsWithCwd env cwd ∧ env.tree.pathExists w.root = true := by
  unfold sortedWritableRoots
  rw [List.mem_insertionSort, mem_existingWritableRoots hglobs]

lemma mem_allowedRoots {root : AbsolutePath} :
    root ∈ allowedRoots policy env cwd ↔ ∃ w ∈ sortedWritableRoots policy env cwd,
      w.root = root := by
  unfold allowedRoots sortedWritableRoots
  simp only [List.mem_map, List.mem_insertionSort]

/-- A denied path that exists is masked somewhere above the base. -/
lemma view_mask_of_denied (hu : u ∈ deniedRoots policy env cwd)
    (hexists : env.tree.pathExists u = true) (hup : u <+: p)
    (hrootless : view ((rootlessRoots policy env cwd).flatMap
      (maskLayers env (allowedRoots policy env cwd))) p = none)
    (hroots : view ((sortedWritableRoots policy env cwd).flatMap
      (mountedLayers policy env cwd)) p = none) :
    view ((ancestorRoots policy env cwd).flatMap
      (maskLayers env (allowedRoots policy env cwd))) p ≠ none := by
  obtain ⟨layer, hlayer, htarget⟩ := exists_mem_maskLayers (allowedRoots policy env cwd)
    (Or.inl hexists)
  rw [mountPoint_of_exists hexists] at htarget
  have hcovers : layer.target <+: p := htarget ▸ hup
  rw [view_eq_none_iff] at hrootless hroots
  rw [Ne, view_eq_none_iff]
  intro hanc
  -- no writable root lies above the denied path
  have habove : ∀ root ∈ allowedRoots policy env cwd, ¬ root <+: u := by
    intro root hroot hle
    obtain ⟨w, hw, rfl⟩ := mem_allowedRoots.mp hroot
    refine hroots layer (List.mem_flatMap.mpr ⟨w, hw, List.mem_append_right _ ?_⟩) hcovers
    exact mem_protectionLayers.mpr (Or.inr ⟨u, hu, hle, hlayer⟩)
  by_cases hbelow : ∃ root ∈ allowedRoots policy env cwd, u <+: root
  · refine hanc layer (List.mem_flatMap.mpr ⟨u, ?_, hlayer⟩) hcovers
    unfold ancestorRoots
    rw [mem_sortByDepth, List.mem_filter]
    refine ⟨hu, ?_⟩
    simp only [Bool.and_eq_true, Bool.not_eq_true', List.any_eq_false, List.any_eq_true,
      List.isPrefixOf_iff_prefix]
    exact ⟨habove, hbelow⟩
  · refine hrootless layer (List.mem_flatMap.mpr ⟨u, ?_, hlayer⟩) hcovers
    unfold rootlessRoots
    rw [mem_sortByDepth, List.mem_filter]
    refine ⟨hu, ?_⟩
    simp only [Bool.not_eq_true', List.any_eq_false, Bool.or_eq_true,
      List.isPrefixOf_iff_prefix, not_or]
    push Not at hbelow
    exact fun root hroot => ⟨habove root hroot, hbelow root hroot⟩

/-- A path is shown by the last root that is mounted over it, or else by the base. -/
lemma exposed_cases (hglobs : NoGlobs policy.entries)
    (h : createFilesystemArgs policy env cwd scan depth = .ok args) (hx : Exposed env p x)
    (hshown : exposure args p = some x) :
    (∃ before w later, sortedWritableRoots policy env cwd = before ++ w :: later ∧
      view (mountedLayers policy env cwd w) p = some x ∧
      ∀ w' ∈ later, view (mountedLayers policy env cwd w') p = none) ∨
    ((∀ u ∈ deniedRoots policy env cwd, env.tree.pathExists u = true → ¬ u <+: p) ∧
      view (layersOf (baseArgs policy env cwd)) p = some x) := by
  rw [exposure_eq hglobs h, Option.or_eq_some_iff] at hshown
  rcases hshown with hshown | ⟨hrootless, hshown⟩
  · exact absurd hshown (view_maskLayers_ne hx)
  rw [Option.or_eq_some_iff] at hshown
  rcases hshown with hshown | ⟨hroots, hshown⟩
  · exact .inl (exists_of_view_flatMap hshown)
  rw [Option.or_eq_some_iff] at hshown
  rcases hshown with hshown | ⟨hanc, hshown⟩
  · exact absurd hshown (view_maskLayers_ne hx)
  right
  refine ⟨?_, hshown⟩
  intro u hu hexists hup
  exact view_mask_of_denied hu hexists hup hrootless hroots hanc

lemma exists_entry_of_mounted (hglobs : NoGlobs policy.entries)
    (hw : w ∈ sortedWritableRoots policy env cwd) :
    ∃ e ∈ policy.resolvedEntriesWithCwd env cwd, e.path = w.root ∧
      policy.canWritePathWithCwd env cwd w.root = true := by
  have hmem := ((mem_sortedWritableRoots hglobs).mp hw).1
  obtain ⟨⟨e, he, hpath, -, hwrite⟩, -⟩ :=
    (mem_getWritableRoots
      (hasFullDiskWriteAccess_of_mem hmem)).mp hmem
  exact ⟨e, he, hpath, hwrite⟩

lemma mem_readOnlySubpaths {c : AbsolutePath} (hw : w ∈ policy.getWritableRootsWithCwd env cwd) :
    c ∈ w.readOnlySubpaths ↔ c ∈ policy.defaultCarveouts env cwd w.root ∨
      c ∈ policy.explicitCarveouts env cwd w.root := by
  obtain ⟨-, hsub⟩ := (mem_getWritableRoots
    (hasFullDiskWriteAccess_of_mem hw)).mp hw
  rw [hsub, mem_dedupAbsolutePaths, List.mem_append]

lemma view_protectionLayers_of_subpath (hglobs : NoGlobs policy.entries)
    (hw : w ∈ sortedWritableRoots policy env cwd) {c : AbsolutePath}
    (hc : c ∈ w.readOnlySubpaths) (hwc : w.root <+: c) (hcp : mountPoint env c <+: p) :
    view (protectionLayers env (allowedRoots policy env cwd) (deniedRoots policy env cwd) w)
      p ≠ none := by
  have hexists := ((mem_sortedWritableRoots hglobs).mp hw).2
  have hwithin : isWithinAllowedWritePaths (mountPoint env c) (allowedRoots policy env cwd) = true :=
    (isWithin_iff _).mpr ⟨w.root, mem_allowedRoots.mpr ⟨w, hw, rfl⟩, le_mountPoint hexists hwc⟩
  rw [Ne, view_eq_none_iff]
  intro hnone
  by_cases hdenied : c ∈ deniedRoots policy env cwd
  · obtain ⟨layer, hlayer, htarget⟩ := exists_mem_maskLayers _ (Or.inr hwithin)
    exact hnone layer (mem_protectionLayers.mpr (Or.inr ⟨c, hdenied, hwc, hlayer⟩))
      (htarget ▸ hcp)
  · obtain ⟨layer, hlayer, htarget⟩ := exists_mem_readOnlyLayers hwithin
    exact hnone layer (mem_protectionLayers.mpr (Or.inl ⟨c, hc, hdenied, hlayer⟩))
      (htarget ▸ hcp)

/-- The base is never writable, and shows what the policy or the platform makes readable. -/
lemma base_layer {layer : Layer Text Exposure}
    (h : layer ∈ layersOf (baseArgs policy env cwd)) :
    layer.content ≠ .writable ∧ (layer.content = .readOnly →
      policy.hasFullDiskReadAccess = true ∨
      layer.target ∈ policy.getReadableRootsWithCwd env cwd ∨
      layer.target ∈ includedPlatformDefaults policy env) := by
  have hroot : layersOf [.roBind [] [], .dev slashDev] =
      [⟨[], .readOnly⟩, ⟨slashDev, .replaced⟩] := rfl
  unfold baseArgs at h
  split at h
  · rename_i hfull
    refine ⟨?_, fun _ => .inl hfull⟩
    rw [hroot, List.mem_cons, List.mem_singleton] at h
    rcases h with rfl | rfl
    · simp
    · simp
  · dsimp only at h
    split at h
    · rename_i hread
      rw [List.mem_dedup, List.mem_insertionSort, List.mem_append] at hread
      rw [hroot, List.mem_cons, List.mem_singleton] at h
      rcases h with rfl | rfl
      · exact ⟨by simp, fun _ => .inr hread⟩
      · exact ⟨by simp, by simp⟩
    · unfold layersOf at h
      obtain ⟨arg, harg, hlayer⟩ := List.mem_filterMap.mp h
      rw [List.mem_append, List.mem_map] at harg
      rcases harg with harg | ⟨root, hmem, rfl⟩
      · rw [List.mem_cons, List.mem_singleton] at harg
        rcases harg with rfl | rfl
        · rw [← Option.some.inj hlayer]
          exact ⟨by simp, by simp⟩
        · rw [← Option.some.inj hlayer]
          exact ⟨by simp, by simp⟩
      · have hmem := List.mem_of_mem_filter hmem
        rw [List.mem_dedup, List.mem_insertionSort, List.mem_append] at hmem
        rw [← Option.some.inj hlayer]
        exact ⟨by simp, fun _ => .inr hmem⟩

/-- What is writable lies in a root that protects it by no layer. -/
lemma exists_root_of_writable (hglobs : NoGlobs policy.entries)
    (h : createFilesystemArgs policy env cwd scan depth = .ok args)
    (hshown : exposure args p = some .writable) :
    ∃ before w later, sortedWritableRoots policy env cwd = before ++ w :: later ∧
      w ∈ sortedWritableRoots policy env cwd ∧ w.root <+: p ∧
      view (protectionLayers env (allowedRoots policy env cwd)
        (deniedRoots policy env cwd) w) p = none ∧
      ∀ w' ∈ later, view (mountedLayers policy env cwd w') p = none := by
  have hx : Exposed env p .writable := .inl rfl
  rcases exposed_cases hglobs h hx hshown with
    ⟨before, w, later, hsplit, hview, hlater⟩ | ⟨-, hbase⟩
  · rcases exposed_by_root hx hview with ⟨-, hroot, hnone⟩ | ⟨hro, -⟩
    · exact ⟨before, w, later, hsplit, by simp [hsplit], hroot, hnone, hlater⟩
    · cases hro
  · obtain ⟨layer, hmem, -, hcontent⟩ := exists_of_view hbase
    exact absurd hcontent (base_layer hmem).1

lemma canWritePath_of_exposure (hkind : policy.kind = .restricted)
    (hglobs : NoGlobs policy.entries)
    (h : createFilesystemArgs policy env cwd scan depth = .ok args)
    (hshown : exposure args p = some .writable) :
    policy.canWritePathWithCwd env cwd p = true := by
  obtain ⟨-, w, -, -, hw, hroot, hnone, -⟩ := exists_root_of_writable hglobs h hshown
  obtain ⟨-, -, -, hwrite⟩ := exists_entry_of_mounted hglobs hw
  apply canWritePath_of_not_carved hkind hwrite hroot
  intro c hc hcp
  have hbelow : w.root <+: c := by
    obtain ⟨_, _, _, _, _, _, hbelow⟩ := mem_explicitCarveouts.mp hc
    exact hbelow
  have hsub : c ∈ w.readOnlySubpaths :=
    (mem_readOnlySubpaths ((mem_sortedWritableRoots hglobs).mp hw).1).mpr (Or.inr hc)
  exact view_protectionLayers_of_subpath hglobs hw hsub hbelow
    ((mountPoint_isInitial c).trans hcp) hnone

end View

/-! ## The view against the policy -/

section Refinement

variable (policy : FileSystemSandboxPolicy) (env : Env) (cwd : AbsolutePath)

/-- The path is neither in `/dev` nor in `/proc`. -/
def OutsideDevProc (p : AbsolutePath) : Prop := ¬ slashDev <+: p ∧ ¬ slashProc <+: p

instance (p : AbsolutePath) : Decidable (OutsideDevProc p) := inferInstanceAs (Decidable (_ ∧ _))

/-- The paths that the policy protects: denied ones and read-only subpaths of writable roots. -/
def IsProtected (p : AbsolutePath) : Prop :=
  p ∈ policy.getUnreadableRootsWithCwd env cwd ∨
    ∃ w ∈ policy.getWritableRootsWithCwd env cwd, p ∈ w.readOnlySubpaths

/-- The view that the arguments make does not exceed the policy. -/
structure WithinPolicy (args : List BwrapArg) : Prop where
  write : ∀ p, OutsideDevProc p → exposure args p = some .writable →
    policy.canWritePathWithCwd env cwd p = true
  read : ∀ p, OutsideDevProc p → env.tree.pathExists p = true →
    (exposure args p = some .writable ∨ exposure args p = some .readOnly) →
    policy.canReadPathWithCwd env cwd p = true ∨
      ∃ root ∈ includedPlatformDefaults policy env, root <+: p
  missing : ∀ p, IsProtected policy env cwd p → env.tree.pathExists p = false →
    exposure args p ≠ some .writable

/-- When a root `w` protects a git directory `g` outside of itself, what is denied in `g` lies in
a denied path of `w` or of a root that is mounted after `w`. -/
def GitdirsMasked : Prop :=
  ∀ before w later, sortedWritableRoots policy env cwd = before ++ w :: later →
    ∀ g ∈ w.readOnlySubpaths, ¬ w.root <+: g →
    (∃ w' ∈ sortedWritableRoots policy env cwd, w'.root <+: g) →
    ∀ p, OutsideDevProc p → g <+: p → env.tree.pathExists p = true →
    policy.canReadPathWithCwd env cwd p = false →
    (∀ root ∈ includedPlatformDefaults policy env, ¬ root <+: p) →
    ∃ u ∈ policy.getUnreadableRootsWithCwd env cwd, u <+: p ∧ ∃ w' ∈ w :: later, w'.root <+: u

/-- When the working directory is a writable root that is missing, each mounted root around it, or
one that is mounted later, protects a path whose mount point lies above its `.codex`. -/
def DotCodexSealed : Prop :=
  ∀ w ∈ policy.getWritableRootsWithCwd env cwd, w.root = cwd →
    cwd ++ [dotCodex] ∈ w.readOnlySubpaths → env.tree.pathExists cwd = false →
    ∀ before r later, sortedWritableRoots policy env cwd = before ++ r :: later →
    r.root <+: cwd ++ [dotCodex] →
    ∃ r' ∈ r :: later, ∃ c ∈ r'.readOnlySubpaths, mountPoint env c <+: cwd ++ [dotCodex] ∧
      ∃ r'' ∈ sortedWritableRoots policy env cwd, r''.root <+: mountPoint env c

variable {policy env cwd}
variable {scan : List Text → AbsolutePath → Option ℕ → Except BwrapError (List AbsolutePath)}
  {depth : Option ℕ} {args : List BwrapArg} {p : AbsolutePath}

variable {w : WritableRoot}

/-- A denied path that the last root above `p` or a later one holds hides `p`. -/
lemma not_denied_above {later : List WritableRoot} {x : Exposure}
    (hx : Exposed env p x) (hp : env.tree.pathExists p = true)
    (hview : view (mountedLayers policy env cwd w) p = some x)
    (hlater : ∀ w' ∈ later, view (mountedLayers policy env cwd w') p = none)
    (hu : u ∈ deniedRoots policy env cwd) (hup : u <+: p) :
    ∀ w' ∈ w :: later, ¬ w'.root <+: u := by
  have hexists := pathExists_above hp hup
  intro w' hw' hle
  rcases List.mem_cons.mp hw' with rfl | hw'
  · rcases exposed_by_root hx hview with ⟨-, -, hnone⟩ | ⟨-, -, hmasks, -⟩
    · exact view_protectionLayers_of_mask hu hle hexists hup hnone
    · exact hmasks u hu hle hup
  · have hnone := (view_rootLayers_eq_none_iff.mp (hlater w' hw')).1
    exact view_protectionLayers_of_mask hu hle hexists hup hnone

/-- What is readable in the view is readable by the policy or a platform default. -/
lemma canReadPath_of_exposure (hkind : policy.kind = .restricted) (hglobs : NoGlobs policy.entries)
    (h : createFilesystemArgs policy env cwd scan depth = .ok args)
    (hgit : GitdirsMasked policy env cwd) (hout : OutsideDevProc p)
    (hp : env.tree.pathExists p = true) (hshown : exposure args p = some .readOnly) :
    policy.canReadPathWithCwd env cwd p = true ∨
      ∃ root ∈ includedPlatformDefaults policy env, root <+: p := by
  by_contra hcon
  rw [not_or, Bool.not_eq_true] at hcon
  obtain ⟨hdenied, hdefault⟩ := hcon
  push Not at hdefault
  have hx : Exposed env p .readOnly := .inr ⟨rfl, hp⟩
  rcases exposed_cases hglobs h hx hshown with
    ⟨before, w, later, hsplit, hview, hlater⟩ | ⟨hnone, hbase⟩
  · have hw : w ∈ sortedWritableRoots policy env cwd := by
      rw [hsplit]
      simp
    rcases exposed_by_root hx hview with ⟨hx', -⟩ | ⟨-, -, -, c, hc, hcp, hwithin⟩
    · cases hx'
    have hmask : ∃ u ∈ policy.getUnreadableRootsWithCwd env cwd, u <+: p ∧
        ∃ w' ∈ w :: later, w'.root <+: u := by
      by_cases hwc : w.root <+: c
      · -- a subpath of the root itself
        obtain ⟨e, he, hpath, hwrite⟩ := exists_entry_of_mounted hglobs hw
        have hread := canReadPath_of_canWritePath hwrite
        rw [← hpath] at hread hwc
        obtain ⟨u, hu, hle, hup⟩ := exists_unreadable_below hkind he hread
          (hwc.trans hcp) hdenied
        exact ⟨u, hu, hup, w, List.mem_cons_self, hpath ▸ hle⟩
      · obtain ⟨root, hroot, hle⟩ := (isWithin_iff _).mp hwithin
        obtain ⟨w', hw', rfl⟩ := mem_allowedRoots.mp hroot
        exact hgit before w later hsplit c hc hwc ⟨w', hw', hle⟩ p hout hcp hp hdenied hdefault
    obtain ⟨u, hu, hup, w', hw', hle⟩ := hmask
    exact not_denied_above hx hp hview hlater (mem_deniedRoots.mpr hu) hup w' hw' hle
  · obtain ⟨layer, hmem, htarget, hcontent⟩ := exists_of_view hbase
    rcases (base_layer hmem).2 hcontent with hfull | hread | hplatform
    · rw [canReadPath_of_fullDiskRead hfull] at hdenied
      cases hdenied
    · obtain ⟨e, he, hpath, hcan⟩ :=
        exists_entry_of_mem_getReadableRoots hread
      rw [← hpath] at hcan htarget
      obtain ⟨u, hu, -, hup⟩ := exists_unreadable_below hkind he hcan
        htarget hdenied
      exact hnone u (mem_deniedRoots.mpr hu) (pathExists_above hp hup) hup
    · exact hdefault _ hplatform htarget

lemma view_rootless_eq_none {root : AbsolutePath} (hroot : root ∈ allowedRoots policy env cwd)
    (hp : root <+: p) :
    view ((rootlessRoots policy env cwd).flatMap
      (maskLayers env (allowedRoots policy env cwd))) p = none := by
  rw [view_eq_none_iff]
  intro layer hmem htarget
  obtain ⟨u, hu, hlayer⟩ := List.mem_flatMap.mp hmem
  have hmask := maskLayer_of_mem hlayer
  rw [hmask.target] at htarget
  unfold rootlessRoots at hu
  rw [mem_sortByDepth, List.mem_filter] at hu
  simp only [Bool.not_eq_true', List.any_eq_false, Bool.or_eq_true,
    List.isPrefixOf_iff_prefix, not_or] at hu
  cases hexists : env.tree.pathExists u with
  | true =>
    rw [mountPoint_of_exists hexists] at htarget
    rcases List.prefix_or_prefix_of_prefix hp htarget with hle | hle
    · exact (hu.2 root hroot).1 hle
    · exact (hu.2 root hroot).2 hle
  | false =>
    obtain ⟨root', hroot', hle⟩ := (isWithin_iff _).mp (hmask.within hexists)
    exact (hu.2 root' hroot').1 (hle.trans (mountPoint_isInitial u))

variable {before later : List WritableRoot}

/-- Below a mounted root that has a layer above `p`, what `p` shows comes from that root or a
later one. -/
lemma exists_of_mounted (hglobs : NoGlobs policy.entries)
    (h : createFilesystemArgs policy env cwd scan depth = .ok args)
    {root : AbsolutePath}
    (hsplit : sortedWritableRoots policy env cwd = before ++ w :: later)
    (hview : view (mountedLayers policy env cwd w) p ≠ none)
    (hroot : root ∈ allowedRoots policy env cwd) (hp : root <+: p) :
    ∃ x, exposure args p = some x ∧
      ∃ w' ∈ w :: later, view (mountedLayers policy env cwd w') p = some x := by
  have hne : view ((w :: later).flatMap (mountedLayers policy env cwd)) p ≠ none := by
    rw [List.flatMap_cons, view_append, Ne, Option.or_eq_none_iff]
    exact fun hnone => hview hnone.2
  obtain ⟨x, hx⟩ := Option.ne_none_iff_exists'.mp hne
  refine ⟨x, ?_, ?_⟩
  · rw [exposure_eq hglobs h, view_rootless_eq_none hroot hp, Option.none_or, hsplit,
      List.flatMap_append, view_append, hx]
    rfl
  · obtain ⟨before', w', later', hsplit', hview', -⟩ := exists_of_view_flatMap hx
    refine ⟨w', ?_, hview'⟩
    rw [hsplit']
    simp

/-- What a root with its protections shows. -/
lemma mounted_cases {x : Exposure} (h : view (mountedLayers policy env cwd w) p = some x) :
    x = .writable ∨
    (∃ c ∈ w.readOnlySubpaths, c ∉ deniedRoots policy env cwd ∧ ∃ layer,
      ReadOnlyLayer env (allowedRoots policy env cwd) c layer ∧ layer.target <+: p ∧
        layer.content = x) ∨
    ∃ u ∈ deniedRoots policy env cwd, w.root <+: u ∧ ∃ layer,
      MaskLayer env (allowedRoots policy env cwd) u layer ∧ layer.target <+: p ∧
        layer.content = x := by
  obtain ⟨layer, hmem, htarget, hcontent⟩ := exists_of_view h
  rcases List.mem_append.mp hmem with hmem | hmem
  · left
    rw [List.mem_singleton] at hmem
    rw [← hcontent, hmem]
  · right
    rcases mem_protectionLayers.mp hmem with ⟨c, hc, hnot, hlayer⟩ | ⟨u, hu, hwu, hlayer⟩
    · exact .inl ⟨c, hc, hnot, layer, readOnlyLayer_of_mem hlayer, htarget, hcontent⟩
    · exact .inr ⟨u, hu, hwu, layer, maskLayer_of_mem hlayer, htarget, hcontent⟩

section

variable (hkind : policy.kind = .restricted)
include hkind

lemma not_denied_of_default {root c : AbsolutePath}
    (hc : c ∈ policy.defaultCarveouts env cwd root) : c ∉ deniedRoots policy env cwd := by
  intro hdenied
  obtain ⟨⟨e, he, hpath, -⟩, -⟩ :=
    (mem_getUnreadableRoots hkind).mp (mem_deniedRoots.mp hdenied)
  unfold defaultCarveouts at hc
  rw [List.mem_filter] at hc
  simp only [Bool.not_eq_true', List.any_eq_false, decide_eq_true_eq] at hc
  exact hc.2 e he hpath

/-- The view shows the denied paths of a git directory that is mounted too late. -/
lemma gitdirsMasked_of_read (hglobs : NoGlobs policy.entries)
    (h : createFilesystemArgs policy env cwd scan depth = .ok args)
    (hread : ∀ p, OutsideDevProc p → env.tree.pathExists p = true →
      (exposure args p = some .writable ∨ exposure args p = some .readOnly) →
      policy.canReadPathWithCwd env cwd p = true ∨
        ∃ root ∈ includedPlatformDefaults policy env, root <+: p) :
    GitdirsMasked policy env cwd := by
  intro before w later hsplit g hg hwg ⟨w₀, hw₀, hw₀g⟩ p hout hgp hp hdenied hdefault
  by_contra hmasked
  push Not at hmasked
  have hw : w ∈ sortedWritableRoots policy env cwd := by
    rw [hsplit]
    simp
  have hallowed : w₀.root ∈ allowedRoots policy env cwd := mem_allowedRoots.mpr ⟨w₀, hw₀, rfl⟩
  have hgexists := pathExists_above hp hgp
  -- the git directory has no entry, so it is mounted read-only
  have hgdefault : g ∈ policy.defaultCarveouts env cwd w.root := by
    rcases (mem_readOnlySubpaths ((mem_sortedWritableRoots hglobs).mp hw).1).mp hg with hd | he
    · exact hd
    · obtain ⟨_, _, _, _, _, _, hbelow⟩ := mem_explicitCarveouts.mp he
      exact absurd hbelow hwg
  have hview : view (mountedLayers policy env cwd w) p ≠ none := by
    rw [Ne, view_eq_none_iff]
    intro hnone
    have hwithin : isWithinAllowedWritePaths (mountPoint env g) (allowedRoots policy env cwd) =
        true := by
      rw [mountPoint_of_exists hgexists]
      exact (isWithin_iff _).mpr ⟨w₀.root, hallowed, hw₀g⟩
    obtain ⟨layer, hlayer, htarget⟩ := exists_mem_readOnlyLayers hwithin
    rw [mountPoint_of_exists hgexists] at htarget
    refine hnone layer (List.mem_append_right _ ?_) (htarget ▸ hgp)
    exact mem_protectionLayers.mpr (Or.inl ⟨g, hg, not_denied_of_default hkind hgdefault, hlayer⟩)
  obtain ⟨x, hx, w', hw', hview'⟩ := exists_of_mounted hglobs h hsplit hview hallowed
    (hw₀g.trans hgp)
  have hshown : exposure args p = some .writable ∨ exposure args p = some .readOnly := by
    rw [hx]
    rcases mounted_cases hview' with rfl | ⟨c, -, -, layer, hro, htarget, rfl⟩ |
      ⟨u, hu, hwu, layer, hmask, htarget, -⟩
    · exact .inl rfl
    · right
      rw [hro.target] at htarget
      rw [hro.readOnly (exists_of_mountPoint hp htarget).1]
    · rw [hmask.target] at htarget
      have hmount := (exists_of_mountPoint hp htarget).2
      rw [hmount] at htarget
      exact absurd hwu (hmasked u (mem_deniedRoots.mp hu) htarget w' hw')
  rcases hread p hout hp hshown with hcan | ⟨root, hroot, hle⟩
  · rw [hdenied] at hcan
    cases hcan
  · exact hdefault root hroot hle

lemma mem_readOnlySubpaths_of_denied (hglobs : NoGlobs policy.entries)
    (hw : w ∈ sortedWritableRoots policy env cwd)
    (hu : u ∈ deniedRoots policy env cwd) (hwu : w.root <+: u) : u ∈ w.readOnlySubpaths := by
  obtain ⟨⟨e, he, hpath, hmode⟩, hread, -⟩ :=
    (mem_getUnreadableRoots hkind).mp (mem_deniedRoots.mp hu)
  obtain ⟨-, -, -, hwrite⟩ := exists_entry_of_mounted hglobs hw
  have hnowrite : policy.canWritePathWithCwd env cwd u = false := by
    cases hcan : policy.canWritePathWithCwd env cwd u with
    | false => rfl
    | true =>
      rw [canReadPath_of_canWritePath hcan] at hread
      cases hread
  rw [mem_readOnlySubpaths ((mem_sortedWritableRoots hglobs).mp hw).1]
  refine Or.inr (mem_explicitCarveouts.mpr
    ⟨e, he, hpath, ?_, hnowrite, ?_, hwu⟩)
  · rw [hmode]
    simp
  · intro heq
    rw [heq, hwrite] at hnowrite
    cases hnowrite

end

/-- The only default subpath that may be missing is the `.codex` of the working directory. -/
lemma eq_dotCodex_of_missing {root c : AbsolutePath}
    (hc : c ∈ policy.defaultCarveouts env cwd root) (hmissing : env.tree.pathExists c = false) :
    cwd = root ∧ c = root ++ [dotCodex] := by
  have hdir : ∀ q, env.tree.isDir q = true → env.tree.pathExists q = true := by
    intro q hq
    unfold isDir at hq
    unfold pathExists
    rw [of_decide_eq_true hq]
    rfl
  have hfile : ∀ q, env.tree.isFile q = true → env.tree.pathExists q = true := by
    intro q hq
    unfold isFile at hq
    unfold pathExists
    cases hnode : env.tree.node q with
    | none =>
      rw [hnode] at hq
      cases hq
    | some node => rfl
  have hgitdir : resolveGitdirFromFile env root = some c → env.tree.pathExists c = true := by
    intro hresolve
    unfold resolveGitdirFromFile at hresolve
    obtain ⟨contents, -, hresolve⟩ := Option.bind_eq_some_iff.mp hresolve
    obtain ⟨raw, -, hresolve⟩ := Option.bind_eq_some_iff.mp hresolve
    split at hresolve
    · cases hresolve
    dsimp only at hresolve
    split at hresolve
    · rename_i hexists
      rw [← Option.some.inj hresolve]
      exact hexists
    · cases hresolve
  unfold defaultCarveouts at hc
  have hc := List.mem_of_mem_filter hc
  unfold defaultReadOnlySubpathsForWritableRoot at hc
  simp only [mem_dedupAbsolutePaths, List.mem_append] at hc
  rcases hc with (hc | hc) | hc
  · split at hc
    · rename_i hgit
      rw [List.mem_append, Option.mem_toList, List.mem_singleton] at hc
      rcases hc with hc | hc
      · rw [hgitdir hc] at hmissing
        cases hmissing
      · rw [hc, hfile _ hgit] at hmissing
        cases hmissing
    · split at hc
      · rename_i hgit
        rw [List.mem_singleton.mp hc, hdir _ hgit] at hmissing
        cases hmissing
      · cases hc
  · split at hc
    · rename_i hagents
      rw [List.mem_singleton.mp hc, hdir _ hagents] at hmissing
      cases hmissing
    · cases hc
  · split at hc
    · rename_i hcodex
      rw [List.mem_singleton] at hc
      rw [Bool.or_eq_true, decide_eq_true_eq] at hcodex
      rcases hcodex with hcwd | hcodex
      · exact ⟨hcwd, hc⟩
      · rw [hc, hdir _ hcodex] at hmissing
        cases hmissing
    · cases hc

lemma pairwise_sortedWritableRoots (policy : FileSystemSandboxPolicy) (env : Env)
    (cwd : AbsolutePath) :
    (sortedWritableRoots policy env cwd).Pairwise fun a b =>
      pathDepth a.root ≤ pathDepth b.root := by
  have htotal : Std.Total fun a b : WritableRoot => pathDepth a.root ≤ pathDepth b.root :=
    ⟨fun a b => Nat.le_total _ _⟩
  have htrans : IsTrans WritableRoot fun a b => pathDepth a.root ≤ pathDepth b.root :=
    ⟨fun a b c hab hbc => Nat.le_trans hab hbc⟩
  exact List.pairwise_insertionSort _ _

lemma mem_later_of_deeper {w w' : WritableRoot}
    (hsplit : sortedWritableRoots policy env cwd = before ++ w :: later)
    (hw' : w' ∈ sortedWritableRoots policy env cwd) (hdepth : w.root.length < w'.root.length) :
    w' ∈ later := by
  have hsorted := pairwise_sortedWritableRoots policy env cwd
  rw [hsplit] at hw' hsorted
  rcases List.mem_append.mp hw' with hw' | hw'
  · have hle := (List.pairwise_append.mp hsorted).2.2 w' hw' w List.mem_cons_self
    unfold pathDepth at hle
    omega
  · rcases List.mem_cons.mp hw' with rfl | hw'
    · omega
    · exact hw'

lemma eq_of_root_eq {w w' : WritableRoot} (hw : w ∈ policy.getWritableRootsWithCwd env cwd)
    (hw' : w' ∈ policy.getWritableRootsWithCwd env cwd) (hroot : w.root = w'.root) : w = w' := by
  have hfull := hasFullDiskWriteAccess_of_mem hw
  obtain ⟨-, hsub⟩ := (mem_getWritableRoots hfull).mp hw
  obtain ⟨-, hsub'⟩ := (mem_getWritableRoots hfull).mp hw'
  obtain ⟨root, subpaths⟩ := w
  obtain ⟨root', subpaths'⟩ := w'
  dsimp only at hroot hsub hsub'
  rw [hsub, hsub', hroot]

/-- The `.codex` of a mounted working directory is sealed by that root itself. -/
lemma dotCodex_sealed_of_exists (hglobs : NoGlobs policy.entries)
    (h : createFilesystemArgs policy env cwd scan depth = .ok args)
    (hw : w ∈ sortedWritableRoots policy env cwd) (hcwd : w.root = cwd)
    (hc : cwd ++ [dotCodex] ∈ w.readOnlySubpaths)
    (hmissing : env.tree.pathExists (cwd ++ [dotCodex]) = false) :
    exposure args (cwd ++ [dotCodex]) ≠ some .writable := by
  intro hshown
  have hbelow : w.root <+: cwd ++ [dotCodex] := by
    rw [hcwd]
    exact List.prefix_append _ _
  obtain ⟨before, r, later, hsplit, hr, hroot, hnone, hlater⟩ :=
    exists_root_of_writable hglobs h hshown
  obtain ⟨hrmem, hrexists⟩ := (mem_sortedWritableRoots hglobs).mp hr
  -- the root that shows lies at or above the working directory
  have hle : r.root <+: cwd := by
    rcases List.prefix_concat_iff.mp hroot with heq | hle
    · rw [heq, hmissing] at hrexists
      cases hrexists
    · exact hle
  by_cases heq : r.root = cwd
  · have hrw : r = w := eq_of_root_eq hrmem ((mem_sortedWritableRoots hglobs).mp hw).1
      (heq.trans hcwd.symm)
    rw [hrw] at hnone
    exact view_protectionLayers_of_subpath hglobs hw hc hbelow (mountPoint_isInitial _) hnone
  · have hlt : r.root.length < w.root.length := by
      rw [hcwd]
      exact lt_of_le_of_ne hle.length_le fun hlen => heq (hle.eq_of_length hlen)
    have hnone := hlater w (mem_later_of_deeper hsplit hw hlt)
    exact (view_rootLayers_eq_none_iff.mp hnone).2 hbelow

/-- A protection of a root that shows above the `.codex` of a missing working directory keeps it
from being created. -/
lemma not_writable_of_sealed (hkind : policy.kind = .restricted) (hglobs : NoGlobs policy.entries)
    (h : createFilesystemArgs policy env cwd scan depth = .ok args)
    (hsealed : ∀ before r later, sortedWritableRoots policy env cwd = before ++ r :: later →
      r.root <+: p → ∃ r' ∈ r :: later, ∃ c ∈ r'.readOnlySubpaths, mountPoint env c <+: p ∧
        ∃ r'' ∈ sortedWritableRoots policy env cwd, r''.root <+: mountPoint env c) :
    exposure args p ≠ some .writable := by
  intro hshown
  obtain ⟨before, r, later, hsplit, -, hroot, hnone, hlater⟩ :=
    exists_root_of_writable hglobs h hshown
  obtain ⟨r', hr', c, hc, hcp, r'', hr'', hwithin⟩ := hsealed before r later hsplit hroot
  have hr'mem : r' ∈ sortedWritableRoots policy env cwd := by
    rw [hsplit]
    exact List.mem_append_right _ hr'
  have hprotected : view (protectionLayers env (allowedRoots policy env cwd)
      (deniedRoots policy env cwd) r') p = none := by
    rcases List.mem_cons.mp hr' with rfl | hr'
    · exact hnone
    · exact (view_rootLayers_eq_none_iff.mp (hlater r' hr')).1
  have hw : isWithinAllowedWritePaths (mountPoint env c) (allowedRoots policy env cwd) = true :=
    (isWithin_iff _).mpr ⟨r''.root, mem_allowedRoots.mpr ⟨r'', hr'', rfl⟩, hwithin⟩
  rcases (mem_readOnlySubpaths ((mem_sortedWritableRoots hglobs).mp hr'mem).1).mp hc with hd | he
  · obtain ⟨layer, hlayer, htarget⟩ := exists_mem_readOnlyLayers hw
    rw [view_eq_none_iff] at hprotected
    exact hprotected layer (mem_protectionLayers.mpr
      (Or.inl ⟨c, hc, not_denied_of_default hkind hd, hlayer⟩)) (htarget ▸ hcp)
  · obtain ⟨_, _, _, _, _, _, hbelow⟩ := mem_explicitCarveouts.mp he
    exact view_protectionLayers_of_subpath hglobs hr'mem hc hbelow hcp hprotected

/-- Below a writable root, only what is below a protected subpath is not writable. -/
lemma sealed_of_not_writable (hkind : policy.kind = .restricted) (hglobs : NoGlobs policy.entries)
    (h : createFilesystemArgs policy env cwd scan depth = .ok args)
    (hshown : exposure args p ≠ some .writable)
    {r : WritableRoot} (hsplit : sortedWritableRoots policy env cwd = before ++ r :: later)
    (hroot : r.root <+: p) :
    ∃ r' ∈ r :: later, ∃ c ∈ r'.readOnlySubpaths, mountPoint env c <+: p ∧
      ∃ r'' ∈ sortedWritableRoots policy env cwd, r''.root <+: mountPoint env c := by
  have hr : r ∈ sortedWritableRoots policy env cwd := by
    rw [hsplit]
    simp
  have hview : view (mountedLayers policy env cwd r) p ≠ none := by
    intro hnone
    exact (view_rootLayers_eq_none_iff.mp hnone).2 hroot
  obtain ⟨x, hx, r', hr', hview'⟩ := exists_of_mounted hglobs h hsplit hview
    (mem_allowedRoots.mpr ⟨r, hr, rfl⟩) hroot
  have hr'mem : r' ∈ sortedWritableRoots policy env cwd := by
    rw [hsplit]
    exact List.mem_append_right _ hr'
  rcases mounted_cases hview' with hw | ⟨c, hc, -, layer, hro, htarget, -⟩ |
    ⟨u, hu, hwu, layer, hmask, htarget, -⟩
  · rw [hw] at hx
    exact absurd hx hshown
  · rw [hro.target] at htarget
    obtain ⟨root, hroot, hle⟩ := (isWithin_iff _).mp hro.within
    obtain ⟨r'', hr'', rfl⟩ := mem_allowedRoots.mp hroot
    exact ⟨r', hr', c, hc, htarget, r'', hr'', hle⟩
  · rw [hmask.target] at htarget
    have hexists := ((mem_sortedWritableRoots hglobs).mp hr'mem).2
    exact ⟨r', hr', u, mem_readOnlySubpaths_of_denied hkind hglobs hr'mem hu hwu, htarget, r',
      hr'mem, le_mountPoint hexists hwu⟩

lemma not_writable_of_protected (hkind : policy.kind = .restricted)
    (hglobs : NoGlobs policy.entries)
    (h : createFilesystemArgs policy env cwd scan depth = .ok args)
    (hcodex : DotCodexSealed policy env cwd) (hp : IsProtected policy env cwd p)
    (hmissing : env.tree.pathExists p = false) : exposure args p ≠ some .writable := by
  rcases hp with hdenied | ⟨w, hw, hc⟩
  · intro hshown
    have hread := canReadPath_of_canWritePath
      (canWritePath_of_exposure hkind hglobs h hshown)
    rw [((mem_getUnreadableRoots hkind).mp hdenied).2.1] at hread
    cases hread
  · rcases (mem_readOnlySubpaths hw).mp hc with hd | he
    · obtain ⟨hcwd, rfl⟩ := eq_dotCodex_of_missing hd hmissing
      rw [← hcwd] at hc hmissing ⊢
      cases hexists : env.tree.pathExists cwd with
      | true =>
        have hmounted : w ∈ sortedWritableRoots policy env cwd :=
          (mem_sortedWritableRoots hglobs).mpr ⟨hw, hcwd ▸ hexists⟩
        exact dotCodex_sealed_of_exists hglobs h hmounted hcwd.symm hc hmissing
      | false =>
        exact not_writable_of_sealed hkind hglobs h (hcodex w hw hcwd.symm hc hexists)
    · intro hshown
      obtain ⟨_, _, _, _, hnowrite, _⟩ := mem_explicitCarveouts.mp he
      rw [canWritePath_of_exposure hkind hglobs h hshown] at hnowrite
      cases hnowrite

/-- The view stays within the policy exactly when no git directory is mounted over masked paths
and the `.codex` of a missing working directory is sealed. -/
theorem withinPolicy_iff (policy : FileSystemSandboxPolicy) (env : Env) (cwd : AbsolutePath)
    (scan : List Text → AbsolutePath → Option ℕ → Except BwrapError (List AbsolutePath))
    (depth : Option ℕ) (args : List BwrapArg) (hkind : policy.kind = .restricted)
    (hglobs : NoGlobs policy.entries)
    (h : createFilesystemArgs policy env cwd scan depth = .ok args) :
    WithinPolicy policy env cwd args ↔
      GitdirsMasked policy env cwd ∧ DotCodexSealed policy env cwd := by
  constructor
  · intro hwithin
    refine ⟨gitdirsMasked_of_read hkind hglobs h hwithin.read, ?_⟩
    intro w hw hcwd hc hmissing before r later hsplit hroot
    have hcodex : env.tree.pathExists (cwd ++ [dotCodex]) = false := by
      cases hexists : env.tree.pathExists (cwd ++ [dotCodex]) with
      | false => rfl
      | true =>
        rw [pathExists_above hexists (List.prefix_append cwd _)] at hmissing
        cases hmissing
    exact sealed_of_not_writable hkind hglobs h
      (hwithin.missing _ (Or.inr ⟨w, hw, hc⟩) hcodex) hsplit hroot
  · intro ⟨hgit, hcodex⟩
    refine ⟨?_, ?_, ?_⟩
    · intro p _ hshown
      exact canWritePath_of_exposure hkind hglobs h hshown
    · intro p hout hp hshown
      rcases hshown with hshown | hshown
      · exact .inl (canReadPath_of_canWritePath
          (canWritePath_of_exposure hkind hglobs h hshown))
      · exact canReadPath_of_exposure hkind hglobs h hgit hout hp hshown
    · intro p hp hmissing
      exact not_writable_of_protected hkind hglobs h hcodex hp hmissing

end Refinement

/-! ## A worktree next to its repository -/

/-- A repository `/main` with a key in its git directory, which the `.git` file of `/work` names. -/
def worktreeEnv : Env where
  home := none
  currentDir := none
  tmpdir := none
  tree := .ofNodes [(["main".toList], .dir), (["main".toList, dotGit], .dir),
    (["main".toList, dotGit, "key".toList], .file (.text "secret".toList)),
    (["work".toList], .dir),
    (["work".toList, dotGit], .file (.text "gitdir: /main/.git".toList)),
    (slashDev, .dir), (devNull, .file (.text []))]

/-- Write access to both, and none to the key. -/
def worktreePolicy : FileSystemSandboxPolicy :=
  .restricted [⟨.path ["main".toList], .write⟩, ⟨.path ["work".toList], .write⟩,
    ⟨.path ["main".toList, dotGit, "key".toList], .none⟩]

/-- The mounts for the worktree: the git directory comes again after the mask over its key. -/
def worktreeArgs : List BwrapArg :=
  [ .tmpfs [], .dev slashDev, .roBind ["main".toList] ["main".toList],
    .roBind ["work".toList] ["work".toList], .bind ["main".toList] ["main".toList],
    .roBind ["main".toList, dotGit] ["main".toList, dotGit], .perms "000".toList,
    .roBindData ["main".toList, dotGit, "key".toList], .bind ["work".toList] ["work".toList],
    .roBind ["main".toList, dotGit] ["main".toList, dotGit],
    .roBind ["work".toList, dotGit] ["work".toList, dotGit],
    .roBind devNull ["work".toList, dotCodex] ]

/-- The key is denied by the policy and can be read in the sandbox. -/
theorem worktree_exceeds_policy :
    worktreePolicy.kind = .restricted ∧ NoGlobs worktreePolicy.entries ∧
      createFilesystemArgs worktreePolicy worktreeEnv ["work".toList] (fun _ _ _ => .ok []) none =
        .ok worktreeArgs ∧
      ¬ WithinPolicy worktreePolicy worktreeEnv ["work".toList] worktreeArgs := by
  refine ⟨rfl, by simp [NoGlobs, worktreePolicy, restricted], by decide, ?_⟩
  intro hwithin
  have hshown : exposure worktreeArgs ["main".toList, dotGit, "key".toList] = some .readOnly := by
    decide
  have hread := hwithin.read ["main".toList, dotGit, "key".toList] (by decide) (by decide)
    (.inr hshown)
  revert hread
  decide

/-- A repository `/repo/main` with a key in its git directory, which the `.git` file of `/work` names. -/
def nestedEnv : Env where
  home := none
  currentDir := none
  tmpdir := none
  tree := .ofNodes [(["repo".toList], .dir), (["repo".toList, "main".toList], .dir),
    (["repo".toList, "main".toList, dotGit], .dir),
    (["repo".toList, "main".toList, dotGit, "key".toList], .file (.text "secret".toList)),
    (["work".toList], .dir), (["work".toList, "out".toList], .dir),
    (["work".toList, "out".toList, "log".toList], .dir),
    (["work".toList, dotGit], .file (.text "gitdir: /repo/main/.git".toList)),
    (slashDev, .dir), (devNull, .file (.text []))]

/-- Write access to both and to `/work/out/log`, and none to `/work/out` and the key. -/
def nestedPolicy : FileSystemSandboxPolicy :=
  .restricted [⟨.path ["work".toList], .write⟩, ⟨.path ["work".toList, "out".toList], .none⟩,
    ⟨.path ["work".toList, "out".toList, "log".toList], .write⟩,
    ⟨.path ["repo".toList, "main".toList], .write⟩,
    ⟨.path ["repo".toList, "main".toList, dotGit, "key".toList], .none⟩]

/-- The mask over the key comes after the git directory, as its root is deeper than the worktree. -/
theorem withinPolicy_nested : ∃ args,
    createFilesystemArgs nestedPolicy nestedEnv ["work".toList] (fun _ _ _ => .ok []) none = .ok args ∧
      exposure args ["repo".toList, "main".toList, dotGit, "key".toList] = some .replaced ∧
      exposure args ["work".toList, "out".toList] = some .hidden ∧
      exposure args ["work".toList, "out".toList, "log".toList] = some .writable ∧
      WithinPolicy nestedPolicy nestedEnv ["work".toList] args := by
  obtain ⟨args, hargs, hshown⟩ : ∃ args,
      createFilesystemArgs nestedPolicy nestedEnv ["work".toList] (fun _ _ _ => .ok []) none = .ok args ∧
        exposure args ["repo".toList, "main".toList, dotGit, "key".toList] = some .replaced ∧
        exposure args ["work".toList, "out".toList] = some .hidden ∧
        exposure args ["work".toList, "out".toList, "log".toList] = some .writable :=
    ⟨_, rfl, by decide, by decide, by decide⟩
  have hglobs : NoGlobs nestedPolicy.entries := by simp [NoGlobs, nestedPolicy, restricted]
  refine ⟨args, hargs, hshown.1, hshown.2.1, hshown.2.2,
    (withinPolicy_iff nestedPolicy nestedEnv ["work".toList] _ none args rfl hglobs hargs).mpr ⟨?_, ?_⟩⟩
  · intro before w later hsplit g hg hout _ p _ hgp _ hdenied _
    -- the one git directory outside of its root lies in a root that is mounted later
    have hlater : ∀ roots ∈ (sortedWritableRoots nestedPolicy nestedEnv ["work".toList]).tails,
        ∀ w ∈ roots.head?, ∀ g ∈ w.readOnlySubpaths, ¬w.root <+: g →
          ["repo".toList, "main".toList] <+: g ∧ ∃ w' ∈ roots, w'.root = ["repo".toList, "main".toList] := by
      decide
    obtain ⟨hmain, w', hw', hroot⟩ := hlater (w :: later) (by
      rw [List.mem_tails, hsplit]
      exact List.suffix_append before _) w rfl g hg hout
    obtain ⟨u, hu, hmainu, hup⟩ := exists_unreadable_below (r := ⟨["repo".toList, "main".toList], .write⟩) rfl
      (by decide) (by decide) (hmain.trans hgp) hdenied
    exact ⟨u, hu, hup, w', hw', hroot ▸ hmainu⟩
  · intro w _ _ _ hmissing
    exact absurd hmissing (by decide)

end Supercodex.LinuxSandbox
