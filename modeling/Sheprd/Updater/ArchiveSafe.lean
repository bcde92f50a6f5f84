import Sheprd.Updater.Archive

namespace Sheprd.Updater.Archive

open Sheprd.Lib Sheprd.Lib.Exec Sheprd.Lib.Sys

lemma components_ne_nil {path : OsStr} (h : path ≠ []) : components path ≠ [] := by
  obtain ⟨c, cs, rfl⟩ := List.exists_cons_of_ne_nil h
  unfold components
  by_cases absolute : c = slash
  · simp [absolute]
  · have apart : ¬ (c == slash) = true := by simpa using absolute
    obtain ⟨first, parts, split⟩ : ∃ first parts, (c :: cs).splitOn slash = (c :: first) :: parts := by
      have split := List.splitOnP_cons_eq_if_modifyHead (p := (· == slash)) c cs
      rw [if_neg apart] at split
      cases rest : cs.splitOnP (· == slash) with
      | nil => exact absurd rest (List.splitOnP_ne_nil _ _)
      | cons first parts =>
        rw [rest] at split
        exact ⟨first, parts, split⟩
    rw [split]
    by_cases dot : c :: first = ascii "."
    · simp [absolute, dot]
    · have kept : Component.ofPart (c :: first) ≠ none := by
        unfold Component.ofPart
        rw [if_neg (by simp [dot])]
        split <;> simp
      obtain ⟨component, held⟩ := Option.ne_none_iff_exists'.mp kept
      simp [held]

lemma safe_components {path : OsStr} (safe : safePath path = true) :
    components path = (names path).map .normal ∧ names path ≠ [] := by
  unfold safePath at safe
  simp only [Bool.and_eq_true, Bool.not_eq_true', decide_eq_true_eq, List.all_eq_true] at safe
  obtain ⟨⟨nonempty, -⟩, normal⟩ := safe
  have same : ∀ cs : List Component, (∀ c ∈ cs, c.isNormal = true) →
      cs = (cs.filterMap Component.name?).map .normal := fun cs all => by
    induction cs with
    | nil => rfl
    | cons c cs ih =>
      cases c with
      | normal name =>
        exact congrArg (Component.normal name :: ·) (ih fun c hc => all c (List.mem_cons_of_mem _ hc))
      | rootDir => cases all _ (List.mem_cons_self ..)
      | curDir => cases all _ (List.mem_cons_self ..)
      | parentDir => cases all _ (List.mem_cons_self ..)
  have eq := same _ normal
  refine ⟨eq, fun none => ?_⟩
  have some : components path ≠ [] := components_ne_nil (by simpa using nonempty)
  rw [eq] at some
  exact some (by rw [← names, none, List.map_nil])

lemma safeLink_spec {source : OsStr} (safe : safePath source = true) (target : OsStr) :
    ∃ b, safeLink source target = some b ∧ (b = true → ∃ depth,
      linkDepth (components target) ((names source).length - 1) = some depth ∧ 1 ≤ depth) := by
  obtain ⟨same, proper⟩ := safe_components safe
  have length : (components source).length = (names source).length - 1 + 1 := by
    have pos := List.length_pos_iff.mpr proper
    rw [same, List.length_map]
    omega
  unfold safeLink
  split
  · exact ⟨false, rfl, nofun⟩
  · rw [length]
    refine ⟨_, rfl, fun fits => ?_⟩
    obtain ⟨depth, found, deep⟩ := (Option.any_eq_true _ _).mp fits
    exact ⟨depth, found, of_decide_eq_true deep⟩

lemma mem_parents {path q : List OsStr} : q ∈ parents path ↔ q ≠ [] ∧ q <+: path.dropLast := by
  unfold parents
  rw [List.mem_filter, List.mem_inits, decide_eq_true_eq]
  exact and_comm

section

variable {root : Place} {before : Tree} {paths : List (List OsStr)} {bound : ℕ} {s : Sys}
  {made : List (List OsStr × OsStr)} {faults : ℕ → Option Failure} {maxLinks : ℕ} {mode : Mode}
  {name : OsStr} {p : Progress}

def Fair (e : Error) : Prop := e ≠ .underflow

lemma os_upholds {α : Type} {P : Sys → Prop} {Q : α → Sys → Prop} {m : Exec IoError Sys α}
    (h : Upholds P (fun _ => True) Q m s) : Upholds P Fair Q (os m) s := h.mapErr fun _ _ => nofun

lemma check_upholds {P : Sys → Prop} (blind : Blind P) (h : P s) :
    Upholds P Fair (fun _ _ => True) (check faults) s := (call_upholds blind h).mapErr fun _ _ => nofun

lemma osCall_upholds {P : Sys → Prop} (blind : Blind P) (h : P s) :
    Upholds P Fair (fun _ _ => True) (os (call faults)) s := os_upholds (call_upholds blind h)

def total (reads : List (List UInt8)) : ℕ := (reads.map List.length).sum

lemma total_limited (size : ℕ) (reads : List (List UInt8)) : total (limited size reads) ≤ size := by
  induction reads generalizing size with
  | nil => exact Nat.zero_le _
  | cons read reads ih =>
    unfold limited
    dsimp only
    split
    · exact Nat.zero_le _
    · have rest := ih (size - (read.take size).length)
      have first := List.length_take_le size read
      change (read.take size).length + total (limited (size - (read.take size).length) reads) ≤ size
      omega

lemma copy_upholds (h : Confined root before paths made bound s) {path : List OsStr} (proper : path ≠ [])
    (known : ∃ q ∈ paths, path <+: q) (chunks : List (List UInt8)) :
    Upholds (Confined root before paths made (bound + total chunks)) Fair (fun _ _ => True)
      (copy faults ⟨root ++ path, false⟩ chunks) s := by
  induction chunks generalizing bound s with
  | nil =>
    refine (check_upholds blind_confined h).bind fun _ s h _ => ?_
    exact osCall_upholds blind_confined h
  | cons chunk chunks ih =>
    have more : ∀ s, Confined root before paths made (bound + chunk.length) s →
        Confined root before paths made (bound + total (chunk :: chunks)) s := fun s h => by
      refine h.mono (List.Subset.refl _) ?_
      rw [total, List.map_cons, List.sum_cons]
      omega
    have wide : ∀ s, Confined root before paths made bound s →
        Confined root before paths made (bound + total (chunk :: chunks)) s := fun s h =>
      more s (h.mono (List.Subset.refl _) (Nat.le_add_right ..))
    refine Upholds.seq wide (check_upholds blind_confined h) fun _ s h _ => ?_
    refine Upholds.seq wide (osCall_upholds blind_confined h) fun _ s h _ => ?_
    refine Upholds.seq more (os_upholds (write_upholds h proper known chunk)) fun _ s h _ => ?_
    have rest := ih h
    rwa [Nat.add_assoc] at rest

lemma extractFile_upholds (h : Confined root before paths [] bound s) {path : List OsStr} (proper : path ≠ [])
    (known : path ∈ paths) (entry : Entry) :
    Upholds (Confined root before paths [] (bound + entry.size)) Fair (fun _ _ => True)
      (extractFile faults maxLinks root mode path entry) s := by
  have wide : ∀ s, Confined root before paths [] bound s →
      Confined root before paths [] (bound + entry.size) s := fun s h =>
    h.mono (List.Subset.refl _) (Nat.le_add_right ..)
  have leads : ∃ q ∈ paths, path <+: q := ⟨path, known, List.prefix_rfl⟩
  have few : ∀ s, Confined root before paths [] (bound + total (limited entry.size entry.reads)) s →
      Confined root before paths [] (bound + entry.size) s := fun s h =>
    h.mono (List.Subset.refl _) (Nat.add_le_add_left (total_limited _ _) _)
  refine Upholds.seq wide (os_upholds (createDirAll_upholds h ⟨path, known, List.dropLast_prefix _⟩
    (clear_nil _) _)) fun _ s h _ => ?_
  refine Upholds.seq (Q := fun _ _ => True) wide (.lift h (fun _ _ => nofun) fun _ _ => trivial)
    fun perm s h _ => ?_
  refine Upholds.seq (Q := fun _ _ => True) wide (.refuse h (fun _ => nofun) fun _ => trivial)
    fun _ s h _ => ?_
  refine Upholds.seq wide (os_upholds (create_upholds h leads (clear_nil _) _ fun _ same => by cases same)) ?_
  rintro file s h ⟨rfl, -⟩
  refine Upholds.seq few (copy_upholds h proper leads _) fun _ s h _ => ?_
  refine Upholds.seq few (os_upholds (chmod_upholds h proper leads _)) fun _ s h _ => ?_
  exact (osCall_upholds blind_confined h).mono few (fun _ h => h) fun _ _ _ h => h

structure Tracks (paths : List (List OsStr)) (mode : Mode) (p : Progress) : Prop where
  seen : ∀ q ∈ p.seen, q ≠ [] ∧ q ∈ paths
  bundle : mode = .mac → ∀ q ∈ p.seen, ∃ b ∈ ROOTS, p.bundleRoot = some b ∧ q.head? = some b
  links : ∀ q target, (q, target) ∈ p.links → q ∈ p.seen ∧
    ∃ depth, linkDepth (components target) (q.length - 1) = some depth ∧ 1 ≤ depth
  directories : ∀ d ∈ p.distributionDirectories, d ≠ [] ∧ ∃ q ∈ paths, d <+: q
  expanded : p.expanded ≤ LIMIT

def Noted (mode : Mode) (p : Progress) (e : Except IoError Entry) : Prop :=
  ∃ entry source, e = .ok entry ∧ entry.path = .ok source ∧ safePath source = true ∧
    names source ∈ p.seen ∧ (mode = .mac → entry.kind = .symlink → ∃ target, (names source, target) ∈ p.links)

lemma Noted.mono {p' : Progress} {e : Except IoError Entry} (h : Noted mode p e) (seen : p.seen ⊆ p'.seen)
    (links : p.links ⊆ p'.links) : Noted mode p' e := by
  obtain ⟨entry, source, read, path, safe, here, linked⟩ := h
  refine ⟨entry, source, read, path, safe, seen here, fun mac symlink => ?_⟩
  obtain ⟨target, held⟩ := linked mac symlink
  exact ⟨target, links held⟩

def noted (p : Progress) (path : List OsStr) (bundleRoot : Option OsStr) (expanded : ℕ) : Progress :=
  { p with
    seen := path :: p.seen
    distributionDirectories := parents path ∪ p.distributionDirectories
    bundleRoot
    expanded }

def Bundled (mode : Mode) (p : Progress) (path : List OsStr) (bundleRoot : Option OsStr) : Prop :=
  mode = .mac → ∃ b ∈ ROOTS, bundleRoot = some b ∧ path.head? = some b ∧ ∀ b', p.bundleRoot = some b' → b' = b

lemma Tracks.note (t : Tracks paths mode p) {path : List OsStr} (proper : path ≠ []) (known : path ∈ paths)
    {bundleRoot : Option OsStr} (bundled : Bundled mode p path bundleRoot) {expanded : ℕ}
    (few : expanded ≤ LIMIT) : Tracks paths mode (noted p path bundleRoot expanded) where
  seen q hq := by
    obtain rfl | hq := List.mem_cons.mp hq
    · exact ⟨proper, known⟩
    · exact t.seen q hq
  bundle mac q hq := by
    obtain ⟨b, root, held, head, same⟩ := bundled mac
    refine ⟨b, root, held, ?_⟩
    obtain rfl | hq := List.mem_cons.mp hq
    · exact head
    · obtain ⟨b', -, held', head'⟩ := t.bundle mac q hq
      rw [← same b' held']
      exact head'
  links q target hq := (t.links q target hq).imp_left (List.mem_cons_of_mem _)
  directories d hd := by
    obtain hd | hd := List.mem_union_iff.mp hd
    · obtain ⟨proper', lead⟩ := mem_parents.mp hd
      exact ⟨proper', path, known, lead.trans (List.dropLast_prefix _)⟩
    · exact t.directories d hd
  expanded := few

lemma Tracks.link (t : Tracks paths mode p) {path : List OsStr} {target : OsStr} (here : path ∈ p.seen)
    (fits : ∃ depth, linkDepth (components target) (path.length - 1) = some depth ∧ 1 ≤ depth) :
    Tracks paths mode { p with links := p.links ++ [(path, target)] } where
  seen := t.seen
  bundle := t.bundle
  links q target' hq := by
    obtain hq | hq := List.mem_append.mp hq
    · exact t.links q target' hq
    · obtain ⟨rfl, rfl⟩ := Prod.mk.inj (List.mem_singleton.mp hq)
      exact ⟨here, fits⟩
  directories := t.directories
  expanded := t.expanded

lemma Tracks.directory (t : Tracks paths mode p) {path : List OsStr} (proper : path ≠ [])
    (known : path ∈ paths) :
    Tracks paths mode { p with distributionDirectories := p.distributionDirectories.insert path } where
  seen := t.seen
  bundle := t.bundle
  links := t.links
  directories d hd := by
    obtain rfl | hd := List.mem_insert_iff.mp hd
    · exact ⟨proper, d, known, List.prefix_rfl⟩
    · exact t.directories d hd
  expanded := t.expanded

lemma bundleOf_upholds {P : Sys → Prop} (h : P s) (path : List OsStr) :
    Upholds P Fair (fun b _ => Bundled .mac p path (some b)) (bundleOf path p.bundleRoot) s := by
  refine Upholds.bind (Q := fun b _ => b ∈ ROOTS ∧ path.head? = some b)
    (.require h nofun fun b found => ?_) fun b s h here => ?_
  · exact ⟨List.mem_of_find?_eq_some found, by simpa using List.find?_some found⟩
  · refine Upholds.bind (Q := fun _ _ => ∀ b', p.bundleRoot = some b' → b' = b)
      (.refuse h (fun _ => nofun) fun same b' held => ?_) fun _ s h same => ?_
    · rw [held] at same
      simpa using same
    · exact .pure h fun _ => ⟨b, here.1, rfl, here.2, same⟩

def Advanced (root : Place) (before : Tree) (paths : List (List OsStr)) (mode : Mode) (p : Progress)
    (e : Except IoError Entry) (p' : Progress) (s : Sys) : Prop :=
  Confined root before paths [] p'.expanded s ∧ Tracks paths mode p' ∧ Noted mode p' e ∧
    p.seen ⊆ p'.seen ∧ p.links ⊆ p'.links

lemma payloadRoot_upholds {P : Sys → Prop} (h : P s) (source : OsStr) (kind : Kind) :
    Upholds P Fair (fun bundleRoot _ => Bundled mode p (names source) bundleRoot)
      (payloadRoot mode name source kind p.bundleRoot) s := by
  cases mode with
  | linux =>
    refine (Upholds.refuse (Q := fun _ _ => True) h (fun _ => nofun) fun _ => trivial).bind fun _ s h _ => ?_
    exact .pure h nofun
  | mac => exact (bundleOf_upholds h _).bind fun b s h bundled => .pure h bundled

lemma storeEntry_upholds {source : OsStr} (safe : safePath source = true) (known : names source ∈ paths)
    {entry : Entry} (read : entry.path = .ok source)
    (h : Confined root before paths [] bound s) (t : Tracks paths mode p) (here : names source ∈ p.seen)
    (expanded : p.expanded = bound + entry.size) :
    Upholds (Confined root before paths [] (bound + entry.size)) Fair
      (fun p' s => Confined root before paths [] p'.expanded s ∧ Tracks paths mode p' ∧
        Noted mode p' (.ok entry) ∧ p.seen ⊆ p'.seen ∧ p.links ⊆ p'.links)
      (storeEntry faults maxLinks root mode source entry p) s := by
  have wide : ∀ s, Confined root before paths [] bound s →
      Confined root before paths [] (bound + entry.size) s := fun s h =>
    h.mono (List.Subset.refl _) (Nat.le_add_right ..)
  obtain ⟨-, proper⟩ := safe_components safe
  unfold storeEntry
  dsimp only
  split
  · refine Upholds.seq (Q := fun _ _ => True) wide (.lift h (fun _ _ => nofun) fun _ _ => trivial)
      fun link s h _ => ?_
    refine Upholds.seq (Q := fun _ _ => True) wide (.require h nofun fun _ _ => trivial) fun target s h _ => ?_
    obtain ⟨b, checked, fits⟩ := safeLink_spec safe target
    rw [checked]
    refine Upholds.seq (Q := fun ok _ => ok = b) wide (.pure h rfl) ?_
    rintro b s h rfl
    refine Upholds.seq (Q := fun _ _ => b = true) wide (.refuse h (fun _ => nofun) fun fine => ?_)
      fun _ s h ok => ?_
    · rw [Bool.or_eq_true, not_or] at fine
      simpa using fine.1
    · refine .pure (wide s h) ⟨expanded ▸ wide s h, t.link here (fits ok), ⟨entry, source, rfl, read, safe, here,
        fun _ _ => ⟨target, ?_⟩⟩, List.Subset.refl _, List.subset_append_left _ _⟩
      exact List.mem_append_right _ (List.mem_singleton.mpr rfl)
  · next unlinked =>
    have noted : ∀ {p' : Progress}, p'.seen = p.seen → Noted mode p' (.ok entry) := fun same =>
      ⟨entry, source, rfl, read, safe, same ▸ here, fun mac symlink => absurd ⟨symlink, mac⟩ unlinked⟩
    split
    · refine Upholds.seq (Q := fun _ _ => True) wide (.refuse h (fun _ => nofun) fun _ => trivial)
        fun _ s h _ => ?_
      refine Upholds.seq wide (os_upholds (createDirAll_upholds h ⟨_, known, List.prefix_rfl⟩ (clear_nil _) _))
        fun _ s h _ => ?_
      exact .pure (wide s h) ⟨expanded ▸ wide s h, t.directory proper known, noted rfl, List.Subset.refl _,
        List.Subset.refl _⟩
    · split
      · refine (extractFile_upholds h proper known entry).bind fun _ s h _ => ?_
        exact .pure h ⟨expanded ▸ h, t, noted rfl, List.Subset.refl _, List.Subset.refl _⟩
      · exact .throw (wide s h) nofun

lemma extractEntry_upholds (h : Confined root before paths [] p.expanded s) (t : Tracks paths mode p)
    (entry : Entry) (known : ∀ source, entry.path = .ok source → names source ∈ paths) :
    Upholds (Confined root before paths [] LIMIT) Fair (Advanced root before paths mode p (.ok entry))
      (extractEntry faults maxLinks root mode name p entry) s := by
  have wide : ∀ {n} s, n ≤ LIMIT → Confined root before paths [] n s → Confined root before paths [] LIMIT s :=
    fun _ few h => h.mono (List.Subset.refl _) few
  refine Upholds.seq (Q := fun source _ => entry.path = .ok source) (fun s => wide s t.expanded)
    (.lift h (fun _ _ => nofun) fun _ read => read) fun source s h read => ?_
  refine Upholds.seq (Q := fun _ _ => safePath source = true) (fun s => wide s t.expanded)
    (.refuse h (fun _ => nofun) fun fine => ?_) fun _ s h safe => ?_
  · rw [Bool.or_eq_true, not_or] at fine
    simpa using fine.1
  obtain ⟨-, proper⟩ := safe_components safe
  refine Upholds.seq (fun s => wide s t.expanded) (payloadRoot_upholds h source entry.kind)
    fun bundleRoot s h bundled => ?_
  refine Upholds.seq (Q := fun expanded _ => expanded = p.expanded + entry.size ∧ expanded ≤ LIMIT)
    (fun s => wide s t.expanded) (.require h nofun fun expanded added => ?_) ?_
  · obtain ⟨sum, few⟩ := Option.filter_eq_some_iff.mp added
    unfold checkedAdd at sum
    split at sum
    · cases sum
      exact ⟨rfl, of_decide_eq_true few⟩
    · cases sum
  rintro _ s h ⟨rfl, few⟩
  have t' := t.note proper (known source read) bundled few
  refine (storeEntry_upholds safe (known source read) read h t' (List.mem_cons_self ..) rfl).mono
    (fun s => wide s few) (fun _ h => h) ?_
  rintro p' s - ⟨h, t, here, seen, links⟩
  exact ⟨h, t, here, fun q hq => seen (List.mem_cons_of_mem _ hq), links⟩

lemma extractEntries_upholds (entries : List (Except IoError Entry))
    (h : Confined root before paths [] p.expanded s) (t : Tracks paths mode p)
    (known : ∀ entry source, .ok entry ∈ entries → entry.path = .ok source → names source ∈ paths) :
    Upholds (Confined root before paths [] LIMIT) Fair
      (fun p' s => Confined root before paths [] p'.expanded s ∧ Tracks paths mode p' ∧
        (∀ e ∈ entries, Noted mode p' e) ∧ p.seen ⊆ p'.seen ∧ p.links ⊆ p'.links)
      (extractEntries faults maxLinks root mode name p entries) s := by
  have wide : ∀ {p : Progress}, Tracks paths mode p → ∀ s, Confined root before paths [] p.expanded s →
      Confined root before paths [] LIMIT s := fun t _ h => h.mono (List.Subset.refl _) t.expanded
  induction entries generalizing p s with
  | nil => exact .pure (wide t s h) ⟨h, t, List.forall_mem_nil _, List.Subset.refl _, List.Subset.refl _⟩
  | cons e entries ih =>
    unfold extractEntries
    refine Upholds.seq (wide t) (check_upholds blind_confined h) fun _ s h _ => ?_
    refine Upholds.seq (Q := fun _ _ => True) (wide t) (.refuse h (fun _ => nofun) fun _ => trivial)
      fun _ s h _ => ?_
    refine Upholds.seq (Q := fun entry _ => e = .ok entry) (wide t) (.lift h (fun _ _ => nofun) fun _ ok => ok) ?_
    rintro entry s h rfl
    refine (extractEntry_upholds h t entry fun source => known entry source (List.mem_cons_self ..)).bind ?_
    rintro p₁ s - ⟨h, t, noted, seen, links⟩
    have t : Tracks paths mode { p₁ with index := p₁.index + 1 } :=
      ⟨t.seen, t.bundle, t.links, t.directories, t.expanded⟩
    refine (ih (p := { p₁ with index := p₁.index + 1 }) h t fun entry source here =>
      known entry source (List.mem_cons_of_mem _ here)).mono (fun _ h => h) (fun _ h => h) ?_
    rintro p' s - ⟨h, t, all, seen', links'⟩
    refine ⟨h, t, fun e he => ?_, List.Subset.trans seen seen', List.Subset.trans links links'⟩
    obtain rfl | he := List.mem_cons.mp he
    · exact noted.mono seen' links'
    · exact all e he

lemma checkTrailing_upholds {P : Sys → Prop} (blind : Blind P) (h : P s) (reads : List (List UInt8)) :
    Upholds P Fair (fun _ _ => True) (checkTrailing faults reads) s := by
  induction reads generalizing s with
  | nil => exact (check_upholds blind h).bind fun _ s h _ => osCall_upholds blind h
  | cons bytes more ih =>
    refine (check_upholds blind h).bind fun _ s h _ => ?_
    refine (osCall_upholds blind h).bind fun _ s h _ => ?_
    exact (Upholds.refuse (Q := fun _ _ => True) h (fun _ => nofun) fun _ => trivial).bind fun _ s h _ => ih h

lemma shareDirectories_upholds (h : Confined root before paths [] bound s) (ds : List (List OsStr))
    (known : ∀ d ∈ ds, d ≠ [] ∧ ∃ q ∈ paths, d <+: q) :
    Upholds (Confined root before paths [] bound) Fair (fun _ _ => True)
      (shareDirectories faults maxLinks root ds) s := by
  induction ds generalizing s with
  | nil => exact .pure h trivial
  | cons d ds ih =>
    obtain ⟨proper, lead⟩ := known d (List.mem_cons_self ..)
    refine (check_upholds blind_confined h).bind fun _ s h _ => ?_
    refine (os_upholds (createDirAll_upholds h lead (clear_nil _) _)).bind fun _ s h _ => ?_
    refine (os_upholds (setPermissions_upholds h proper lead (clear_nil _) _)).bind fun _ s h _ => ?_
    exact ih h fun d hd => known d (List.mem_cons_of_mem _ hd)

lemma makeLinks_upholds (h : Confined root before paths made bound s) (links : List (List OsStr × OsStr))
    (known : ∀ q target, (q, target) ∈ links → q ∈ paths ∧ Clear made q.dropLast ∧ (q, target) ∈ made) :
    Upholds (Confined root before paths made bound) Fair (fun _ _ => True)
      (makeLinks faults maxLinks root links) s := by
  induction links generalizing s with
  | nil => exact .pure h trivial
  | cons link links ih =>
    obtain ⟨q, target⟩ := link
    obtain ⟨here, clear, linked⟩ := known q target (List.mem_cons_self ..)
    refine (os_upholds (createDirAll_upholds h ⟨q, here, List.dropLast_prefix _⟩ clear _)).bind fun _ s h _ => ?_
    refine (os_upholds (symlink_upholds h ⟨q, here, List.prefix_rfl⟩ clear linked)).bind fun _ s h _ => ?_
    exact ih h fun q target hq => known q target (List.mem_cons_of_mem _ hq)

def LeadsIn (tree : Tree) (maxLinks : ℕ) (root : Place) (bundleRoot : Option OsStr) (q : List OsStr) : Prop :=
  ∃ b found bundle, bundleRoot = some b ∧ tree.walk maxLinks root (q.map .normal) = .ok found ∧
    tree.walk maxLinks root [.normal b] = .ok bundle ∧ bundle.place <+: found.place

lemma checkLinks_upholds {P : Sys → Prop} {tree : Tree} (blind : Blind P) (still : ∀ s, P s → s.tree = tree)
    (h : P s) (bundleRoot : Option OsStr) (links : List (List OsStr × OsStr)) :
    Upholds P Fair (fun _ _ => ∀ q target, (q, target) ∈ links → LeadsIn tree maxLinks root bundleRoot q)
      (checkLinks faults maxLinks root bundleRoot links) s := by
  induction links generalizing s with
  | nil => exact .pure h nofun
  | cons link links ih =>
    obtain ⟨q, target⟩ := link
    refine (os_upholds (canonicalize_upholds blind h root _)).bind fun found s h led => ?_
    rw [still s h] at led
    refine (Upholds.require (Q := fun b _ => bundleRoot = some b) h nofun fun _ here => here).bind
      fun b s h here => ?_
    refine (os_upholds (canonicalize_upholds blind h root _)).bind fun bundle s h into => ?_
    rw [still s h] at into
    refine (Upholds.refuse (Q := fun _ _ => bundle.place <+: found.place) h (fun _ => nofun) fun lead => ?_).bind
      fun _ s h lead => ?_
    · exact List.isPrefixOf_iff_prefix.mp (by simpa using lead)
    · refine (ih h).mono (fun _ h => h) (fun _ h => h) fun _ _ _ rest q' target' hq => ?_
      obtain same | hq := List.mem_cons.mp hq
      · obtain ⟨rfl, -⟩ := Prod.mk.inj same
        exact ⟨b, found, bundle, here, led, into, lead⟩
      · exact rest q' target' hq

lemma through_lost {tree : Tree} {b : OsStr} {target : OsStr}
    (follow : Place → List Component → Except IoError Spot)
    (here : tree (root ++ [b]) = some (.link target)) (only : ∀ n, n ≠ b → tree (root ++ [n]) = none)
    (lost : ∀ rest spot, follow root (components target ++ rest) ≠ .ok spot) :
    (∀ rest spot, tree.through follow root (.normal b :: rest) ≠ .ok spot) ∧
      ∀ cs depth, linkDepth cs 0 = some depth → 1 ≤ depth →
        ∀ rest spot, tree.through follow root (cs ++ rest) ≠ .ok spot := by
  have at_ : ∀ rest spot, tree.through follow root (.normal b :: rest) ≠ .ok spot := fun rest spot => by
    rw [Tree.through, here]
    dsimp only
    cases led : follow root (components target ++ rest) with
    | error e => simp [Except.map]
    | ok found => exact absurd led (lost rest found)
  refine ⟨at_, fun cs => ?_⟩
  induction cs with
  | nil =>
    intro depth found deep
    cases found
    omega
  | cons c cs ih =>
    intro depth found deep rest spot
    cases c with
    | rootDir => cases found
    | parentDir => cases found
    | curDir => exact ih depth found deep rest spot
    | normal n =>
      by_cases same : n = b
      · rw [same]
        exact at_ (cs ++ rest) spot
      · rw [List.cons_append, Tree.through, only n same]
        simp

lemma walk_lost {tree : Tree} {b : OsStr} {target : OsStr} {depth : ℕ}
    (here : tree (root ++ [b]) = some (.link target)) (only : ∀ n, n ≠ b → tree (root ++ [n]) = none)
    (fits : linkDepth (components target) 0 = some depth) (deep : 1 ≤ depth) (maxLinks : ℕ) :
    (∀ rest spot, tree.walk maxLinks root (.normal b :: rest) ≠ .ok spot) ∧
      ∀ rest spot, tree.walk maxLinks root (components target ++ rest) ≠ .ok spot := by
  induction maxLinks with
  | zero =>
    obtain ⟨at_, along⟩ := through_lost (fun _ _ => .error (.fault ELOOP)) here only fun _ _ => nofun
    exact ⟨at_, along _ depth fits deep⟩
  | succ maxLinks ih =>
    obtain ⟨at_, along⟩ := through_lost (tree.walk maxLinks) here only ih.2
    exact ⟨at_, along _ depth fits deep⟩

lemma bundle_real (h : Confined root before paths p.links bound s) (t : Tracks paths .mac p)
    (all : ∀ q ∈ paths, q ∈ p.seen)
    {b : OsStr} (bundleRoot : p.bundleRoot = some b) {bundle : Spot}
    (led : s.tree.walk maxLinks root [.normal b] = .ok bundle) : bundle = ⟨root ++ [b], false⟩ := by
  have led' : s.tree.walk maxLinks root ([b].map .normal) = .ok bundle := led
  refine Tree.walk_plain (fun q lead proper target found => ?_) led'
  obtain rfl : q = [b] := (List.prefix_cons_iff.mp lead).elim (absurd · proper) fun ⟨rest, same, short⟩ => by
    rw [same, List.prefix_nil.mp short]
  have linked := h.links [b] proper target found
  obtain ⟨-, depth, fits, deep⟩ := t.links _ _ linked
  have heads : ∀ q ∈ paths, q.head? = some b := fun q hq => by
    obtain ⟨b', -, same, head⟩ := t.bundle rfl q (all q hq)
    rw [bundleRoot] at same
    cases same
    exact head
  have only : ∀ n, n ≠ b → s.tree (root ++ [n]) = none := fun n apart => by
    by_contra there
    obtain ⟨q, hq, lead⟩ := h.held [n] (List.cons_ne_nil _ _) there
    obtain ⟨rest, rfl⟩ := lead
    have head := heads _ hq
    exact apart (Option.some.inj head)
  exact (walk_lost found only fits deep maxLinks).1 [] bundle led

end

def entryPaths (entries : List (Except IoError Entry)) : List (List OsStr) :=
  entries.filterMap fun e => (e.toOption.bind fun entry => entry.path.toOption).map names

def Bundle (tree : Tree) (maxLinks : ℕ) (root : Place) (entries : List (Except IoError Entry))
    (candidate : List Component) : Prop :=
  ∃ b ∈ ROOTS, candidate = [.normal b] ∧ ∀ e ∈ entries, ∃ entry source, e = .ok entry ∧
    entry.path = .ok source ∧ (∃ rest, components source = .normal b :: rest) ∧
    (entry.kind = .symlink → ∃ found, tree.walk maxLinks root (components source) = .ok found ∧
      root ++ [b] <+: found.place)

section

variable {root : Place} {before : Tree} {s : Sys} {faults : ℕ → Option Failure} {maxLinks : ℕ}
  {mode : Mode} {p : Progress}

lemma candidateOf_upholds {P : Sys → Prop} (h : P s) (name : OsStr) (bundleRoot : Option OsStr) :
    Upholds P Fair (fun candidate _ => mode = .mac → ∃ b, bundleRoot = some b ∧ candidate = [.normal b])
      (candidateOf mode name bundleRoot) s := by
  cases mode with
  | linux => exact .pure h nofun
  | mac =>
    refine (Upholds.require (Q := fun b _ => bundleRoot = some b) h nofun fun _ here => here).bind
      fun b s h here => ?_
    exact .pure h fun _ => ⟨b, here, rfl⟩

lemma bundle_of_links {paths : List (List OsStr)} {entries : List (Except IoError Entry)} {tree : Tree}
    (t : Tracks paths .mac p) (noted : ∀ e ∈ entries, Noted .mac p e) (nonempty : p.seen ≠ []) {b : OsStr}
    (bundleRoot : p.bundleRoot = some b)
    (real : ∀ bundle, tree.walk maxLinks root [.normal b] = .ok bundle → bundle = ⟨root ++ [b], false⟩)
    (led : ∀ q target, (q, target) ∈ p.links → LeadsIn tree maxLinks root p.bundleRoot q) :
    Bundle tree maxLinks root entries [.normal b] := by
  have heads : ∀ q ∈ p.seen, b ∈ ROOTS ∧ q.head? = some b := fun q hq => by
    obtain ⟨b', known, same, head⟩ := t.bundle rfl q hq
    rw [bundleRoot] at same
    cases same
    exact ⟨known, head⟩
  obtain ⟨q, hq⟩ := List.exists_mem_of_ne_nil _ nonempty
  refine ⟨b, (heads q hq).1, rfl, fun e he => ?_⟩
  obtain ⟨entry, source, ok, read, safe, seen, linked⟩ := noted e he
  obtain ⟨same, -⟩ := safe_components safe
  refine ⟨entry, source, ok, read, ?_, fun symlink => ?_⟩
  · obtain ⟨rest, split⟩ := List.head?_eq_some_iff.mp (heads _ seen).2
    rw [same, split]
    exact ⟨rest.map .normal, rfl⟩
  · obtain ⟨target, held⟩ := linked rfl symlink
    obtain ⟨b', found, bundle, here, reached, into, lead⟩ := led _ _ held
    rw [bundleRoot] at here
    cases here
    rw [real bundle into] at lead
    rw [same]
    exact ⟨found, reached, lead⟩

lemma extract_upholds (order : HashOrder) (archive : TarGz) (name : OsStr)
    (h : Confined root before (entryPaths archive.entries) [] 0 s) :
    Upholds (fun s => ∃ made, Confined root before (entryPaths archive.entries) made LIMIT s) Fair
      (fun candidate s => mode = .mac → Bundle s.tree maxLinks root archive.entries candidate)
      (extract faults maxLinks root order archive mode name) s := by
  have start : Tracks (entryPaths archive.entries) mode .start :=
    ⟨nofun, fun _ => nofun, nofun, nofun, Nat.zero_le _⟩
  have known : ∀ entry source, .ok entry ∈ archive.entries → entry.path = .ok source →
      names source ∈ entryPaths archive.entries := fun entry source here read =>
    List.mem_filterMap.mpr ⟨_, here, by simp [Except.toOption, read]⟩
  have fresh : ∀ s, Confined root before (entryPaths archive.entries) [] 0 s →
      ∃ made, Confined root before (entryPaths archive.entries) made LIMIT s := fun s h =>
    ⟨[], h.mono (List.Subset.refl _) (Nat.zero_le _)⟩
  refine Upholds.seq fresh (osCall_upholds blind_confined h) fun _ s h _ => ?_
  refine Upholds.seq fresh (osCall_upholds blind_confined h) fun _ s h _ => ?_
  refine Upholds.seq (fun _ h => ⟨[], h⟩) (extractEntries_upholds archive.entries h start known) ?_
  rintro p s h ⟨-, t, noted, -, -⟩
  refine Upholds.seq (fun _ h => ⟨[], h⟩) (checkTrailing_upholds blind_confined h _) fun _ s h _ => ?_
  refine Upholds.seq (Q := fun _ _ => True) (fun _ h => ⟨[], h⟩)
    (.refuse h (fun _ => nofun) fun _ => trivial) fun _ s h _ => ?_
  refine Upholds.seq (Q := fun _ _ => ∀ q ∈ p.seen, ∀ d ∈ parents q, d ∉ p.links.map Prod.fst)
    (fun _ h => ⟨[], h⟩) (.refuse h (fun _ => nofun) fun fine => by simpa using fine) fun _ s h unparented => ?_
  have directories : ∀ d ∈ order.visit p.distributionDirectories,
      d ≠ [] ∧ ∃ q ∈ entryPaths archive.entries, d <+: q := fun d hd =>
    t.directories d ((order.perm _).mem_iff.mp hd)
  refine Upholds.seq (fun _ h => ⟨[], h⟩) (shareDirectories_upholds h _ directories) fun _ s h _ => ?_
  have links : ∀ q target, (q, target) ∈ p.links → q ∈ entryPaths archive.entries ∧
      Clear p.links q.dropLast ∧ (q, target) ∈ p.links := fun q target hq => by
    obtain ⟨here, -⟩ := t.links q target hq
    refine ⟨(t.seen q here).2, fun d lead proper target' hd => ?_, hq⟩
    exact unparented q here d (mem_parents.mpr ⟨proper, lead⟩) (List.mem_map_of_mem hd)
  refine Upholds.seq (fun _ h => ⟨p.links, h⟩)
    (makeLinks_upholds (h.mono (List.nil_subset _) le_rfl) p.links links) fun _ s h _ => ?_
  have blind : Blind fun s' => Confined root before (entryPaths archive.entries) p.links LIMIT s' ∧
      s'.tree = s.tree := fun _ h => ⟨h.1.called, h.2⟩
  have ends : ∀ s', Confined root before (entryPaths archive.entries) p.links LIMIT s' ∧ s'.tree = s.tree →
      ∃ made, Confined root before (entryPaths archive.entries) made LIMIT s' := fun _ h => ⟨p.links, h.1⟩
  refine Upholds.seq ends (checkLinks_upholds blind (fun _ h => h.2) ⟨h, rfl⟩ p.bundleRoot p.links)
    fun _ _ h led => ?_
  refine Upholds.seq ends (candidateOf_upholds h name p.bundleRoot) fun candidate _ h chosen => ?_
  refine Upholds.seq (Q := fun _ _ => p.seen ≠ []) ends
    (.refuse h (fun _ => nofun) fun nonempty => by simpa using nonempty) fun _ _ h nonempty => ?_
  refine Upholds.seq ends (os_upholds (exists_upholds blind h root candidate)) fun there _ h _ => ?_
  refine Upholds.seq (Q := fun _ _ => True) ends
    (.refuse h (fun _ => nofun) fun _ => trivial) fun _ s' h _ => ?_
  refine .pure ⟨p.links, h.1⟩ fun mac => ?_
  subst mac
  obtain ⟨b, bundleRoot, rfl⟩ := chosen rfl
  rw [h.2]
  refine bundle_of_links t noted nonempty bundleRoot (fun bundle into => ?_) led
  have all : ∀ q ∈ entryPaths archive.entries, q ∈ p.seen := fun q hq => by
    obtain ⟨e, he, path⟩ := List.mem_filterMap.mp hq
    obtain ⟨entry, source, rfl, read, -, seen, -⟩ := noted e he
    have same : names source = q := by simpa [Except.toOption, read] using path
    exact same ▸ seen
  have into : s'.tree.walk maxLinks root [.normal b] = .ok bundle := h.2 ▸ into
  exact bundle_real h.1 t all bundleRoot into

end

theorem extract_contained (faults : ℕ → Option Failure) (maxLinks : ℕ) (root : Place) (order : HashOrder)
    (archive : TarGz) (mode : Mode) (name : OsStr) (before : Tree)
    (empty : ∀ names, names ≠ [] → before (root ++ names) = none) :
    let ended := exec (extract faults maxLinks root order archive mode name) (.start before)
    (∀ c ∈ ended.2.changes, c.linked = false ∧ Inside root c.place) ∧
      (∀ p, ¬ Inside root p → ended.2.tree p = before p) ∧ ended.2.written ≤ LIMIT ∧
      ended.1 ≠ .error .underflow ∧
      ∀ candidate, ended.1 = .ok candidate → mode = .mac →
        Bundle ended.2.tree maxLinks root archive.entries candidate := by
  have fresh : Confined root before (entryPaths archive.entries) [] 0 (.start before) := by
    refine ⟨nofun, fun _ _ => rfl, fun p proper target found => ?_, fun p proper found => ?_, le_rfl⟩
    · exact absurd ((empty p proper).symm.trans found) nofun
    · exact absurd (empty p proper) found
  have upheld : Upholds _ Fair _ (extract faults maxLinks root order archive mode name) (.start before) :=
    extract_upholds order archive name fresh
  obtain ⟨⟨made, safe⟩, whole, fair⟩ := upheld
  refine ⟨safe.changes, safe.outside, safe.written, fun crash => ?_, whole⟩
  exact fair _ crash rfl

def ordered : HashOrder where
  visit set := set
  perm _ := .refl _

def stage : Tree := fun p => if p = [] ∨ p = [ascii "stage"] then some (.directory 0o700) else none

def linked : TarGz where
  entries :=
    [.ok { path := .ok (ascii "Herdr.app/file"), kind := .file, linkName := .ok none, size := 2,
           perm := .ok 0o644, reads := [ascii "ok"] },
     .ok { path := .ok (ascii "Herdr.app/link"), kind := .symlink, linkName := .ok (some (ascii "file")),
           size := 0, perm := .ok 0o777, reads := [] }]
  trailing := [[0, 0]]
  limit := 1

theorem extract_contained_linked :
    (exec (extract (fun _ => none) 40 [ascii "stage"] ordered linked .mac []) (.start stage)).1 =
        .ok [.normal LEGACY] ∧
      Bundle (exec (extract (fun _ => none) 40 [ascii "stage"] ordered linked .mac []) (.start stage)).2.tree
        40 [ascii "stage"] linked.entries [.normal LEGACY] := by
  have ok : (exec (extract (fun _ => none) 40 [ascii "stage"] ordered linked .mac []) (.start stage)).1 =
      .ok [.normal LEGACY] := congrArg Prod.fst (exec_eq_ok (by decide +kernel))
  refine ⟨ok, (extract_contained (fun _ => none) 40 [ascii "stage"] ordered linked .mac []
    stage fun names proper => ?_).2.2.2.2 _ ok rfl⟩
  obtain ⟨n, rest, rfl⟩ := List.exists_cons_of_ne_nil proper
  simp [stage]

end Sheprd.Updater.Archive
