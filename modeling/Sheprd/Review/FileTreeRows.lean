import Sheprd.Review.FileTreeShown

namespace Sheprd.Review.FileTree

open Lib

mutual

def Child.entries : Child → List (List Chars × ℕ)
  | .file file => [([], file)]
  | .dir name children => (entries children).map fun (folder, file) => (name :: folder, file)

def entries : List Child → List (List Chars × ℕ)
  | [] => []
  | child :: rest => child.entries ++ entries rest

end

def Child.dirName : Child → Option Chars
  | .dir name _ => some name
  | .file _ => none

lemma entries_append (front back : List Child) : entries (front ++ back) = entries front ++ entries back := by
  induction front with
  | nil => rfl
  | cons child front ih => rw [List.cons_append, entries, ih, entries, List.append_assoc]

lemma entries_singleton (child : Child) : entries [child] = child.entries := by
  rw [entries, entries, List.append_nil]

section Insert

variable {children : List Child} {name : Chars} {tail : List Chars} {file : ℕ}

lemma insert_cons (children : List Child) (name : Chars) (htail : tail ≠ []) (file : ℕ) :
    (∃ front inner, children = front ++ [.dir name inner] ∧
        insert children (name :: tail) file = front ++ [.dir name (insert inner tail file)]) ∨
      ((∀ front inner, children ≠ front ++ [.dir name inner]) ∧
        insert children (name :: tail) file = children ++ [.dir name (insert [] tail file)]) := by
  obtain ⟨next, rest, rfl⟩ := List.exists_cons_of_ne_nil htail
  rw [insert]
  cases hlast : children.getLast? with
  | none =>
    refine Or.inr ⟨?_, rfl⟩
    rintro front inner rfl
    simp at hlast
  | some child =>
    have hchildren := List.dropLast_append_getLast? child hlast
    cases child with
    | file file' =>
      refine Or.inr ⟨?_, rfl⟩
      rintro front inner rfl
      simp at hlast
    | dir last inner =>
      simp only
      split
      · rename_i heq
        subst heq
        exact Or.inl ⟨children.dropLast, inner, hchildren.symm, rfl⟩
      · rename_i hne
        refine Or.inr ⟨?_, rfl⟩
        rintro front inner' rfl
        rw [List.getLast?_concat] at hlast
        exact hne (Child.dir.inj (Option.some.inj hlast)).1.symm

lemma entries_insert (folder : List Chars) (last : Chars) (file : ℕ) (children : List Child) :
    entries (insert children (folder ++ [last]) file) = entries children ++ [(folder, file)] := by
  induction folder generalizing children with
  | nil =>
    change entries (children ++ [.file file]) = _
    rw [entries_append]
    rfl
  | cons name folder ih =>
    have htail : folder ++ [last] ≠ [] := by simp
    obtain ⟨front, inner, rfl, hinsert⟩ | ⟨-, hinsert⟩ := insert_cons children name htail file
    · rw [List.cons_append, hinsert, entries_append, entries_append, entries_singleton, entries_singleton,
        Child.entries, ih, List.map_append, Child.entries, List.append_assoc]
      rfl
    · rw [List.cons_append, hinsert, entries_append, entries_singleton, Child.entries, ih]
      rfl

end Insert

section Build

lemma children_entries (files : List FileDiff) (n : ℕ) (found : List Child) :
    entries ((files.zipIdx n).foldl (fun children (file, index) => insert children (parts file.path) index) found) =
      entries found ++ (((files.zipIdx n).map fun (file, index) => (parts file.path, index)).filter
        fun entry => entry.1 ≠ []).map fun (parts, index) => (parts.dropLast, index) := by
  induction files generalizing n found with
  | nil => exact (List.append_nil _).symm
  | cons file files ih =>
    rw [List.zipIdx_cons, List.foldl_cons, ih, List.map_cons]
    by_cases hparts : parts file.path = []
    · simp [hparts, insert]
    · have hjoin := List.dropLast_append_getLast hparts
      have hentries := entries_insert (parts file.path).dropLast ((parts file.path).getLast hparts) n found
      rw [hjoin] at hentries
      rw [hentries, List.filter_cons_of_pos (by simpa using hparts), List.map_cons, List.append_assoc]
      rfl

end Build

def pathOf (names : List Chars) : Chars := names.flatMap fun name => name ++ ['/']

lemma pathOf_append (front back : List Chars) : pathOf (front ++ back) = pathOf front ++ pathOf back :=
  List.flatMap_append

def under (folder : List Chars) (entries : List (List Chars × ℕ)) : List (List Chars × ℕ) :=
  entries.map fun (inner, file) => (folder ++ inner, file)

lemma under_cons (folder : List Chars) (name : Chars) (entries : List (List Chars × ℕ)) :
    under folder (entries.map fun (inner, file) => (name :: inner, file)) = under (folder ++ [name]) entries := by
  rw [under, under, List.map_map]
  refine List.map_congr_left fun entry _ => ?_
  simp

lemma under_nil (entries : List (List Chars × ℕ)) : under [] entries = entries := List.map_id _

inductive Laid : List Chars → ℕ → List (List Chars × ℕ) → List Node → Prop
  | nil (folder : List Chars) (depth : ℕ) : Laid folder depth [] []
  | file {folder : List Chars} {depth file : ℕ} {entries : List (List Chars × ℕ)} {nodes : List Node}
      (rest : Laid folder depth entries nodes) :
      Laid folder depth ((folder, file) :: entries) (.file file depth :: nodes)
  | folder {folder names : List Chars} {depth : ℕ} {inner entries : List (List Chars × ℕ)} {rows nodes : List Node}
      (named : names ≠ []) (below : Laid (folder ++ names) (depth + 1) inner rows)
      (rest : Laid folder depth entries nodes) :
      Laid folder depth (inner ++ entries)
        (.folder (pathOf (folder ++ names)) (pathOf names) depth :: (rows ++ nodes))

section Laid

variable {folder : List Chars} {depth : ℕ} {found more : List (List Chars × ℕ)} {nodes others : List Node}

lemma Laid.append (h : Laid folder depth found nodes) (h' : Laid folder depth more others) :
    Laid folder depth (found ++ more) (nodes ++ others) := by
  induction h with
  | nil => exact h'
  | file _ ih => exact .file (ih h')
  | folder hnamed hbelow _ _ ih =>
    rw [List.append_assoc, List.cons_append, List.append_assoc]
    exact .folder hnamed hbelow (ih h')

lemma Laid.single {names : List Chars} (hnamed : names ≠ []) (hbelow : Laid (folder ++ names) (depth + 1) found nodes) :
    Laid folder depth found (.folder (pathOf (folder ++ names)) (pathOf names) depth :: nodes) := by
  have hlaid := Laid.folder hnamed hbelow (.nil folder depth)
  rwa [List.append_nil, List.append_nil] at hlaid

mutual

lemma nodes_laid (folder : List Chars) (depth : ℕ) : ∀ child : Child,
    Laid folder depth (under folder child.entries) (child.nodes (pathOf folder) depth)
  | .file file => by
    have hlaid : Laid folder depth [(folder, file)] [.file file depth] := .file (.nil folder depth)
    simpa [Child.entries, Child.nodes, under] using hlaid
  | .dir name children => by
    rw [Child.entries, Child.nodes, under_cons]
    exact joined_laid folder depth (by simp) (by simp [pathOf]) children

lemma joined_laid (folder : List Chars) (depth : ℕ) {names : List Chars} {label : Chars} (hnamed : names ≠ [])
    (hlabel : label ++ ['/'] = pathOf names) : ∀ children : List Child,
    Laid folder depth (under (folder ++ names) (entries children)) (joined (pathOf folder) depth label children)
  | [] => by
    have hlaid := Laid.single hnamed (.nil (folder ++ names) (depth + 1))
    rw [pathOf_append, ← hlabel, ← List.append_assoc] at hlaid
    exact hlaid
  | [.dir only inner] => by
    have hjoin : (label ++ '/' :: only) ++ ['/'] = pathOf (names ++ [only]) := by
      rw [pathOf_append, ← hlabel]
      simp [pathOf]
    have hlaid := joined_laid folder depth (by simp) hjoin inner
    rw [entries_singleton, Child.entries, under_cons, List.append_assoc]
    exact hlaid
  | [.file file] => by
    have hfile : Laid (folder ++ names) (depth + 1) [(folder ++ names, file)] [.file file (depth + 1)] :=
      .file (.nil _ _)
    have hlaid := Laid.single hnamed hfile
    rw [pathOf_append, ← hlabel, ← List.append_assoc] at hlaid
    simpa [entries, Child.entries, under, joined, Child.nodes, flatten] using hlaid
  | child :: next :: rest => by
    have hfirst := nodes_laid (folder ++ names) (depth + 1) child
    have hrest := flatten_laid (folder ++ names) (depth + 1) (next :: rest)
    have hlaid := Laid.single hnamed (hfirst.append hrest)
    rw [pathOf_append, ← hlabel, ← List.append_assoc] at hlaid
    rw [joined, entries, under, List.map_append]
    · exact hlaid
    · simp

lemma flatten_laid (folder : List Chars) (depth : ℕ) : ∀ children : List Child,
    Laid folder depth (under folder (entries children)) (flatten (pathOf folder) depth children)
  | [] => .nil folder depth
  | child :: rest => by
    rw [entries, flatten, under, List.map_append]
    exact (nodes_laid folder depth child).append (flatten_laid folder depth rest)

end

def Node.file? : Node → Option ℕ
  | .file index _ => some index
  | .folder _ _ _ => none

def Node.path? : Node → Option Chars
  | .folder path _ _ => some path
  | .file _ _ => none

lemma Laid.files (h : Laid folder depth found nodes) : nodes.filterMap Node.file? = found.map Prod.snd := by
  induction h with
  | nil => rfl
  | file _ ih => simp [Node.file?, ih]
  | folder _ _ _ ih ih' => rw [List.filterMap_cons_none rfl, List.filterMap_append, ih, ih', List.map_append]

lemma Laid.nested (h : Laid folder depth found nodes) {rest : List Node}
    (hrest : ∀ height, depth ≤ height → Nested height rest) :
    ∀ height, depth ≤ height → Nested height (nodes ++ rest) := by
  induction h generalizing rest with
  | nil => exact hrest
  | file _ ih => exact fun height hle => ⟨hle, ih hrest _ le_rfl⟩
  | folder _ _ _ ih ih' =>
    intro height hle
    refine ⟨hle, ?_⟩
    change Nested _ ((_ ++ _) ++ rest)
    rw [List.append_assoc]
    exact ih (fun height hle => ih' hrest height (Nat.le_of_succ_le hle)) _ le_rfl

end Laid

section Distinct

inductive Distinct : List Child → Prop
  | intro {children : List Child}
      (slashless : ∀ name inner, Child.dir name inner ∈ children → '/' ∉ name ∧ entries inner ≠ [])
      (inner : ∀ name inner, Child.dir name inner ∈ children → Distinct inner)
      (names : (children.filterMap Child.dirName).Nodup) : Distinct children

lemma Distinct.inner {children : List Child} (h : Distinct children) {name : Chars} {inner : List Child}
    (hmem : Child.dir name inner ∈ children) : '/' ∉ name ∧ entries inner ≠ [] ∧ Distinct inner := by
  cases h with
  | intro hslashless hinner _ =>
    obtain ⟨hname, hfull⟩ := hslashless name inner hmem
    exact ⟨hname, hfull, hinner name inner hmem⟩

lemma Distinct.names {children : List Child} (h : Distinct children) : (children.filterMap Child.dirName).Nodup := by
  cases h with
  | intro _ _ hnames => exact hnames

lemma Distinct.of_inner {children : List Child}
    (h : ∀ name inner, Child.dir name inner ∈ children → '/' ∉ name ∧ entries inner ≠ [] ∧ Distinct inner)
    (hnames : (children.filterMap Child.dirName).Nodup) : Distinct children :=
  .intro (fun name inner hmem => ⟨(h name inner hmem).1, (h name inner hmem).2.1⟩)
    (fun name inner hmem => (h name inner hmem).2.2) hnames

lemma Distinct.tail {child : Child} {rest : List Child} (h : Distinct (child :: rest)) : Distinct rest := by
  refine .of_inner (fun name inner hmem => h.inner (List.mem_cons_of_mem _ hmem)) ?_
  exact h.names.sublist ((List.sublist_cons_self child rest).filterMap _)

lemma Distinct.head {child : Child} {rest : List Child} (h : Distinct (child :: rest)) :
    ∀ name inner, child = .dir name inner → Distinct inner := by
  rintro name inner rfl
  exact (h.inner List.mem_cons_self).2.2

lemma mem_dirNames {children : List Child} {name : Chars} :
    name ∈ children.filterMap Child.dirName ↔ ∃ inner, Child.dir name inner ∈ children := by
  rw [List.mem_filterMap]
  constructor
  · rintro ⟨child, hchild, hname⟩
    cases child with
    | file file => exact absurd hname (by simp [Child.dirName])
    | dir name' inner =>
      obtain rfl := Option.some.inj hname
      exact ⟨inner, hchild⟩
  · rintro ⟨inner, hmem⟩
    exact ⟨_, hmem, rfl⟩

def Together (folders : List (List Chars)) : Prop :=
  ∀ first middle last folder, [first, middle, last].Sublist folders → folder <+: first → folder <+: last →
    folder <+: middle

lemma Together.sublist {folders folders' : List (List Chars)} (h : Together folders) (hsub : folders'.Sublist folders) :
    Together folders' :=
  fun first middle last folder hthree => h first middle last folder (hthree.trans hsub)

lemma Together.below {name : Chars} {folders : List (List Chars)} (h : Together (folders.map (name :: ·))) :
    Together folders := by
  intro first middle last folder hthree hfirst hlast
  have hmiddle := h (name :: first) (name :: middle) (name :: last) (name :: folder) (hthree.map (name :: ·))
    (List.cons_prefix_cons.mpr ⟨rfl, hfirst⟩) (List.cons_prefix_cons.mpr ⟨rfl, hlast⟩)
  exact (List.cons_prefix_cons.mp hmiddle).2

def foldersOf (children : List Child) : List (List Chars) := (entries children).map Prod.fst

lemma foldersOf_append (front back : List Child) : foldersOf (front ++ back) = foldersOf front ++ foldersOf back := by
  rw [foldersOf, entries_append, List.map_append]
  rfl

lemma foldersOf_dir (name : Chars) (inner : List Child) : foldersOf [.dir name inner] = (foldersOf inner).map (name :: ·) := by
  rw [foldersOf, entries_singleton, Child.entries, List.map_map, foldersOf, List.map_map]
  rfl

lemma foldersOf_insert (folder : List Chars) (last : Chars) (file : ℕ) (children : List Child) :
    foldersOf (insert children (folder ++ [last]) file) = foldersOf children ++ [folder] := by
  rw [foldersOf, entries_insert, List.map_append]
  rfl

lemma fresh_name {children : List Child} {name : Chars} {folder : List Chars} (h : Distinct children)
    (hother : ∀ front inner, children ≠ front ++ [.dir name inner])
    (htogether : Together (foldersOf children ++ [name :: folder])) : name ∉ children.filterMap Child.dirName := by
  intro hname
  obtain ⟨inner, hmem⟩ := mem_dirNames.mp hname
  obtain ⟨front, back, rfl⟩ := List.append_of_mem hmem
  obtain ⟨start, child, rfl⟩ : ∃ start child, back = start ++ [child] := by
    cases hback : back with
    | nil => exact absurd (by rw [hback]) (hother front inner)
    | cons next rest =>
      exact ⟨_, _, (List.dropLast_append_getLast (List.cons_ne_nil next rest)).symm⟩
  obtain ⟨first, hfirst⟩ := List.exists_mem_of_ne_nil _ (h.inner hmem).2.1
  have hlast : Child.dir name inner ∈ front ++ Child.dir name inner :: (start ++ [child]) := hmem
  have hsplit : front ++ Child.dir name inner :: (start ++ [child]) =
      front ++ [Child.dir name inner] ++ start ++ [child] := by simp
  have hnot : ∀ middle ∈ foldersOf [child], ¬ [name] <+: middle := by
    intro middle hmiddle hprefix'
    cases child with
    | file file =>
      obtain rfl : middle = [] := by simpa [foldersOf, entries, Child.entries] using hmiddle
      exact absurd hprefix' (by simp)
    | dir name' inner' =>
      rw [foldersOf_dir] at hmiddle
      obtain ⟨rest, -, rfl⟩ := List.mem_map.mp hmiddle
      obtain rfl := (List.cons_prefix_cons.mp hprefix').1
      refine hother (front ++ [Child.dir name inner] ++ start) inner' hsplit
  have hmiddle : ∃ middle, middle ∈ foldersOf [child] := by
    cases child with
    | file file => exact ⟨[], by simp [foldersOf, entries, Child.entries]⟩
    | dir name' inner' =>
      have hinner : Child.dir name' inner' ∈ front ++ Child.dir name inner :: (start ++ [Child.dir name' inner']) := by simp
      obtain ⟨entry, hentry⟩ := List.exists_mem_of_ne_nil _ (h.inner hinner).2.1
      exact ⟨name' :: entry.1, by rw [foldersOf_dir]; exact List.mem_map_of_mem (List.mem_map_of_mem hentry)⟩
  obtain ⟨middle, hmiddle⟩ := hmiddle
  refine hnot middle hmiddle (htogether (name :: first.1) middle (name :: folder) [name] ?_ (by simp) (by simp))
  have hdir : name :: first.1 ∈ foldersOf [.dir name inner] := by
    rw [foldersOf_dir]
    exact List.mem_map_of_mem (List.mem_map_of_mem hfirst)
  rw [hsplit, foldersOf_append, foldersOf_append, foldersOf_append]
  have htwo : [name :: first.1, middle].Sublist
      (foldersOf front ++ foldersOf [.dir name inner] ++ foldersOf start ++ foldersOf [child]) := by
    have hone : [name :: first.1].Sublist (foldersOf front ++ foldersOf [.dir name inner] ++ foldersOf start) :=
      List.singleton_sublist.mpr (List.mem_append_left _ (List.mem_append_right _ hdir))
    exact hone.append (List.singleton_sublist.mpr hmiddle)
  exact htwo.append (List.Sublist.refl [name :: folder])

lemma Distinct.insert {folder : List Chars} {last : Chars} {file : ℕ} {children : List Child} (h : Distinct children)
    (hnames : ∀ name ∈ folder, '/' ∉ name) (htogether : Together (foldersOf children ++ [folder])) :
    Distinct (insert children (folder ++ [last]) file) := by
  induction folder generalizing children with
  | nil =>
    change Distinct (children ++ [.file file])
    refine .of_inner (fun name inner hmem => h.inner (by simpa using hmem)) ?_
    have hnone : List.filterMap Child.dirName [Child.file file] = [] := rfl
    rw [List.filterMap_append, hnone, List.append_nil]
    exact h.names
  | cons name folder ih =>
    obtain ⟨hname, hfolder⟩ := List.forall_mem_cons.mp hnames
    have htail : folder ++ [last] ≠ [] := by simp
    have hfull : ∀ inner, entries (FileTree.insert inner (folder ++ [last]) file) ≠ [] := by
      intro inner
      rw [entries_insert]
      simp
    obtain ⟨front, inner, rfl, hinsert⟩ | ⟨hother, hinsert⟩ := insert_cons children name htail file
    · rw [List.cons_append, hinsert]
      have hdir := h.inner (List.mem_append_right front List.mem_cons_self)
      have hbelow : Together (foldersOf inner ++ [folder]) := by
        suffices hmap : Together ((foldersOf inner ++ [folder]).map (name :: ·)) from hmap.below
        rw [foldersOf_append, foldersOf_dir, List.append_assoc] at htogether
        refine htogether.sublist ?_
        rw [List.map_append]
        exact List.sublist_append_right _ _
      refine .of_inner ?_ ?_
      · intro name' inner' hmem
        obtain hfront | hlast := List.mem_append.mp hmem
        · exact h.inner (List.mem_append_left _ hfront)
        · obtain ⟨rfl, rfl⟩ := Child.dir.inj (List.mem_singleton.mp hlast)
          exact ⟨hdir.1, hfull _, ih hdir.2.2 hfolder hbelow⟩
      · have hsame := h.names
        rw [List.filterMap_append] at hsame ⊢
        exact hsame
    · rw [List.cons_append, hinsert]
      have hnil : Distinct (FileTree.insert [] (folder ++ [last]) file) := by
        refine ih (.intro (by simp) (by simp) (by simp)) hfolder ?_
        intro first middle last folder hthree
        exact absurd hthree.length_le (by simp [foldersOf, entries])
      refine .of_inner ?_ ?_
      · intro name' inner' hmem
        obtain hold | hlast := List.mem_append.mp hmem
        · exact h.inner hold
        · obtain ⟨rfl, rfl⟩ := Child.dir.inj (List.mem_singleton.mp hlast)
          exact ⟨hname, hfull _, hnil⟩
      · rw [List.filterMap_append, List.nodup_append]
        refine ⟨h.names, by simp [Child.dirName], ?_⟩
        intro found hfound name' hname'
        obtain rfl : name' = name := by simpa [Child.dirName] using hname'
        rintro rfl
        exact fresh_name h hother htogether hfound

end Distinct

end Sheprd.Review.FileTree

namespace Sheprd.Review.FileTree

open Lib

section Paths

lemma name_unique {name name' rest : Chars} (h : '/' ∉ name) (h' : '/' ∉ name') (hname : name ++ ['/'] <+: rest)
    (hname' : name' ++ ['/'] <+: rest) : name = name' := by
  obtain ⟨back, rfl⟩ := hname
  obtain ⟨back', heq⟩ := hname'
  have hsplit : ∀ {front : Chars}, '/' ∉ front → ∀ back,
      Text.splitOnce '/' (front ++ ['/'] ++ back) = some (front, back) := by
    intro front hfront back
    rw [List.append_assoc, List.singleton_append]
    exact Text.splitOnce_append hfront back
  have hsame := hsplit h' back'
  rw [heq, hsplit h back] at hsame
  exact (Prod.mk.inj (Option.some.inj hsame)).1

def paths (nodes : List Node) : List Chars := nodes.filterMap Node.path?

lemma paths_append (front back : List Node) : paths (front ++ back) = paths front ++ paths back := List.filterMap_append

lemma paths_folder (path label : Chars) (depth : ℕ) (rest : List Node) :
    paths (.folder path label depth :: rest) = path :: paths rest := rfl

lemma paths_below {before : Chars} {below : List Chars} (hbelow : ∀ path ∈ below, ∃ name : Chars,
    before ++ name ++ ['/'] <+: path) (hnodup : below.Nodup) :
    (∀ path ∈ before :: below, before <+: path) ∧ (before :: below).Nodup := by
  refine ⟨?_, List.nodup_cons.mpr ⟨?_, hnodup⟩⟩
  · intro path hpath
    obtain rfl | hpath := List.mem_cons.mp hpath
    · exact List.prefix_refl _
    · obtain ⟨name, hname⟩ := hbelow path hpath
      rw [List.append_assoc] at hname
      exact (List.prefix_append _ _).trans hname
  · intro hmem
    obtain ⟨name, hname⟩ := hbelow before hmem
    have hlength := hname.length_le
    simp at hlength

lemma cons_paths {before : Chars} {child : Child} {rest : List Child} {first more : List Chars}
    (h : Distinct (child :: rest))
    (hfirst : (∀ path ∈ first, ∃ name, child.dirName = some name ∧ before ++ name ++ ['/'] <+: path) ∧ first.Nodup)
    (hmore : (∀ path ∈ more, ∃ name, name ∈ rest.filterMap Child.dirName ∧ before ++ name ++ ['/'] <+: path) ∧
      more.Nodup) :
    (∀ path ∈ first ++ more, ∃ name, name ∈ (child :: rest).filterMap Child.dirName ∧
      before ++ name ++ ['/'] <+: path) ∧ (first ++ more).Nodup := by
  have hcons : ∀ name, child.dirName = some name →
      (child :: rest).filterMap Child.dirName = name :: rest.filterMap Child.dirName :=
    fun name hname => List.filterMap_cons_some hname
  refine ⟨?_, List.nodup_append.mpr ⟨hfirst.2, hmore.2, ?_⟩⟩
  · intro path hpath
    obtain hpath | hpath := List.mem_append.mp hpath
    · obtain ⟨name, hname, hbegin⟩ := hfirst.1 path hpath
      exact ⟨name, hcons name hname ▸ List.mem_cons_self, hbegin⟩
    · obtain ⟨name, hname, hbegin⟩ := hmore.1 path hpath
      exact ⟨name, ((List.sublist_cons_self child rest).filterMap _).subset hname, hbegin⟩
  · -- a path below two of them would give both one name
    rintro path hpath _ hpath' rfl
    obtain ⟨name, hname, hbegin⟩ := hfirst.1 path hpath
    obtain ⟨name', hname', hbegin'⟩ := hmore.1 path hpath'
    obtain ⟨inner', hmem'⟩ := mem_dirNames.mp hname'
    have hnames := hcons name hname
    obtain ⟨inner, hmem⟩ := mem_dirNames.mp (hnames ▸ List.mem_cons_self : name ∈ (child :: rest).filterMap Child.dirName)
    obtain ⟨back, rfl⟩ : before <+: path := by
      rw [List.append_assoc] at hbegin
      exact (List.prefix_append _ _).trans hbegin
    rw [List.append_assoc, List.prefix_append_right_inj] at hbegin hbegin'
    have hsame := name_unique (h.inner hmem).1 (h.inner (List.mem_cons_of_mem _ hmem')).1 hbegin hbegin'
    have hnodup := h.names
    rw [hnames, List.nodup_cons] at hnodup
    exact hnodup.1 (hsame ▸ hname')

mutual

lemma nodes_paths (before : Chars) (depth : ℕ) : ∀ child : Child, (∀ name inner, child = .dir name inner → Distinct inner) →
    (∀ path ∈ paths (child.nodes before depth), ∃ name, child.dirName = some name ∧ before ++ name ++ ['/'] <+: path) ∧
      (paths (child.nodes before depth)).Nodup
  | .file file => fun _ => ⟨fun path hpath => absurd hpath (by simp [Child.nodes, paths, Node.path?]), List.nodup_nil⟩
  | .dir name children => fun h => by
    rw [Child.nodes]
    obtain ⟨hbegin, hnodup⟩ := joined_paths before depth name children (h name children rfl)
    exact ⟨fun path hpath => ⟨name, rfl, hbegin path hpath⟩, hnodup⟩

lemma joined_paths (before : Chars) (depth : ℕ) (label : Chars) : ∀ children : List Child, Distinct children →
    (∀ path ∈ paths (joined before depth label children), before ++ label ++ ['/'] <+: path) ∧
      (paths (joined before depth label children)).Nodup
  | [] => fun _ => by simp [joined, paths, Node.path?]
  | [.dir only inner] => fun h => by
    obtain ⟨hbegin, hnodup⟩ := joined_paths before depth (label ++ '/' :: only) inner (h.inner List.mem_cons_self).2.2
    rw [joined]
    refine ⟨fun path hpath => ?_, hnodup⟩
    have hlong : before ++ label ++ ['/'] <+: before ++ (label ++ '/' :: only) ++ ['/'] := ⟨only ++ ['/'], by simp⟩
    exact hlong.trans (hbegin path hpath)
  | [.file file] => fun _ => by
    have hpaths : paths (joined before depth label [.file file]) = [before ++ label ++ ['/']] := by
      simp only [joined, Child.nodes, flatten]
      rfl
    rw [hpaths]
    exact ⟨fun path hpath => List.mem_singleton.mp hpath ▸ List.prefix_refl _, List.nodup_singleton _⟩
  | child :: next :: rest => fun h => by
    have hfirst := nodes_paths (before ++ label ++ ['/']) (depth + 1) child h.head
    have hrest := flatten_paths (before ++ label ++ ['/']) (depth + 1) (next :: rest) h.tail
    obtain ⟨hbegin, hnodup⟩ := cons_paths h hfirst hrest
    rw [joined, paths_folder, paths_append]
    · exact paths_below (fun path hpath => (hbegin path hpath).imp fun name hname => hname.2) hnodup
    · simp

lemma flatten_paths (before : Chars) (depth : ℕ) : ∀ children : List Child, Distinct children →
    (∀ path ∈ paths (flatten before depth children),
        ∃ name, name ∈ children.filterMap Child.dirName ∧ before ++ name ++ ['/'] <+: path) ∧
      (paths (flatten before depth children)).Nodup
  | [] => fun _ => ⟨fun path hpath => absurd hpath (by simp [flatten, paths]), List.nodup_nil⟩
  | child :: rest => fun h => by
    have hfirst := nodes_paths before depth child h.head
    rw [flatten, paths_append]
    exact cons_paths h hfirst (flatten_paths before depth rest h.tail)

end

end Paths

section Sorted

lemma splitOn_slashless {text : Chars} : ∀ part ∈ Text.splitOn ['/'] text, '/' ∉ part := by
  induction text with
  | nil => simp [Text.splitOn]
  | cons c text ih =>
    rw [Text.splitOn]
    split
    · exact List.forall_mem_cons.mpr ⟨by simp, ih⟩
    · rename_i hc
      split
      · simpa [eq_comm] using hc
      · rename_i first rest hsplit
        rw [hsplit] at ih
        obtain ⟨hfirst, hrest⟩ := List.forall_mem_cons.mp ih
        refine List.forall_mem_cons.mpr ⟨?_, hrest⟩
        rw [List.mem_cons, not_or]
        exact ⟨fun heq => hc (heq ▸ List.mem_cons_self), hfirst⟩

lemma splitOn_ne_nil (text : Chars) : Text.splitOn ['/'] text ≠ [] := by
  cases text with
  | nil => simp [Text.splitOn]
  | cons c text =>
    rw [Text.splitOn]
    split
    · simp
    · split <;> simp

lemma splitOn_cases (text : Chars) : Text.splitOn ['/'] text = [text] ∨
    ∃ front back, '/' ∉ front ∧ text = front ++ '/' :: back ∧
      Text.splitOn ['/'] text = front :: Text.splitOn ['/'] back := by
  have hmark : ∀ {front : Chars}, '/' ∉ front → ∀ c ∈ front, c ∉ ['/'] := by
    intro front hfront c hc hmem
    exact hfront (List.mem_singleton.mp hmem ▸ hc)
  by_cases hslash : '/' ∈ text
  · obtain ⟨front, back, rfl, hfront⟩ := List.eq_append_cons_of_mem hslash
    exact Or.inr ⟨front, back, hfront, rfl, Text.splitOn_append List.mem_cons_self (hmark hfront) back⟩
  · exact Or.inl (Text.splitOn_whole (hmark hslash))

lemma isPrefix_folder {folder : List Chars} (hfolder : ∀ name ∈ folder, '/' ∉ name) (text : Chars) :
    folder <+: (Text.splitOn ['/'] text).dropLast ↔ pathOf folder <+: text := by
  induction folder generalizing text with
  | nil => exact iff_of_true List.nil_prefix List.nil_prefix
  | cons name folder ih =>
    obtain ⟨hname, hrest⟩ := List.forall_mem_cons.mp hfolder
    have hpath : pathOf (name :: folder) = name ++ ['/'] ++ pathOf folder := List.flatMap_cons
    rw [hpath]
    obtain hwhole | ⟨front, back, hfront, rfl, hsplit⟩ := splitOn_cases text
    · refine iff_of_false (by simp [hwhole]) ?_
      rintro ⟨rest, rfl⟩
      have hmem : '/' ∈ name ++ ['/'] ++ pathOf folder ++ rest := by simp
      have hsingle := splitOn_slashless (name ++ ['/'] ++ pathOf folder ++ rest) (hwhole ▸ List.mem_cons_self)
      exact hsingle hmem
    · rw [hsplit, List.dropLast_cons_of_ne_nil (splitOn_ne_nil back), List.cons_prefix_cons, ih hrest]
      have hjoin : front ++ '/' :: back = front ++ ['/'] ++ back := by simp
      rw [hjoin]
      constructor
      · rintro ⟨rfl, hback⟩
        exact (List.prefix_append_right_inj _).mpr hback
      · intro hprefix'
        have hsame : name = front := name_unique hname hfront
          ((List.prefix_append _ _).trans hprefix') (List.prefix_append _ _)
        subst hsame
        exact ⟨rfl, (List.prefix_append_right_inj _).mp hprefix'⟩

def Before (text text' : Chars) : Prop := List.Lex (fun c d : Char => c.toNat < d.toNat) text text'

instance (text text' : Chars) : Decidable (Before text text') := inferInstanceAs (Decidable (List.Lex _ text text'))

lemma between_prefix {front first middle last : Chars} (h : ¬ Before middle first) (h' : ¬ Before last middle)
    (hfirst : front <+: first) (hlast : front <+: last) : front <+: middle := by
  induction front generalizing first middle last with
  | nil => exact List.nil_prefix
  | cons c front ih =>
    obtain ⟨back, rfl⟩ := hfirst
    obtain ⟨back', rfl⟩ := hlast
    rw [List.cons_append] at h h'
    cases middle with
    | nil => exact absurd List.Lex.nil h
    | cons d middle =>
      rw [Before, List.cons_lex_cons_iff, not_or] at h h'
      have hsame : c = d := Char.toNat_inj.mp (by omega)
      subst hsame
      have hrest : ¬ Before middle (front ++ back) := fun hlex => h.2 ⟨rfl, hlex⟩
      have hrest' : ¬ Before (front ++ back') middle := fun hlex => h'.2 ⟨rfl, hlex⟩
      exact List.cons_prefix_cons.mpr ⟨rfl, ih hrest hrest' ⟨back, rfl⟩ ⟨back', rfl⟩⟩

end Sorted

section Diff

variable {diff : Diff}

def listed (diff : Diff) : List (List Chars × ℕ) :=
  (diff.files.zipIdx.map fun (file, index) => (parts file.path, index)).filter fun entry => entry.1 ≠ []

def placed (diff : Diff) : List (List Chars × ℕ) := (listed diff).map fun (parts, index) => (parts.dropLast, index)

structure Sorted (diff : Diff) : Prop where
  whole : ∀ file ∈ diff.files, [] ∉ Text.splitOn ['/'] file.path.toList
  order : diff.files.Pairwise fun file file' => ¬ Before file'.path.toList file.path.toList

lemma parts_whole {path : String} (h : [] ∉ Text.splitOn ['/'] path.toList) :
    parts path = Text.splitOn ['/'] path.toList := by
  rw [parts, List.filter_eq_self]
  intro part hpart
  have hne : part ≠ [] := fun heq => h (heq ▸ hpart)
  exact decide_eq_true hne

lemma Sorted.together (h : Sorted diff) : Together ((placed diff).map Prod.fst) := by
  have hsub : ((placed diff).map Prod.fst).Sublist (diff.files.map fun file => (parts file.path).dropLast) := by
    have hfst : ((diff.files.zipIdx.map fun (file, index) => (parts file.path, index)).map
        fun entry => entry.1.dropLast) = diff.files.map fun file => (parts file.path).dropLast := by
      have hfiles := congrArg (List.map fun file => (parts file.path).dropLast) (List.zipIdx_map_fst 0 diff.files)
      rw [List.map_map] at hfiles ⊢
      exact hfiles
    rw [← hfst, placed, List.map_map]
    exact List.filter_sublist.map _
  intro first middle last folder hthree hfirst hlast
  obtain ⟨files, hfiles, heq⟩ := List.sublist_map_iff.mp (hthree.trans hsub)
  obtain ⟨a, b, c, rfl⟩ : ∃ a b c, files = [a, b, c] :=
    List.length_eq_three.mp (by simpa using (congrArg List.length heq).symm)
  simp only [List.map_cons, List.map_nil, List.cons.injEq, and_true] at heq
  obtain ⟨rfl, rfl, rfl⟩ := heq
  have horder := h.order.sublist hfiles
  simp only [List.pairwise_cons, List.mem_cons, List.not_mem_nil, or_false] at horder
  have hab := horder.1 b (Or.inl rfl)
  have hbc := horder.2.1 c rfl
  have hwhole : ∀ file ∈ [a, b, c], parts file.path = Text.splitOn ['/'] file.path.toList :=
    fun file hfile => parts_whole (h.whole file (hfiles.subset hfile))
  rw [hwhole a (by simp)] at hfirst
  rw [hwhole c (by simp)] at hlast
  rw [hwhole b (by simp)]
  have hfolder : ∀ name ∈ folder, '/' ∉ name := fun name hname =>
    splitOn_slashless name ((List.dropLast_sublist _).subset (hfirst.subset hname))
  rw [isPrefix_folder hfolder] at hfirst hlast ⊢
  exact between_prefix hab hbc hfirst hlast

lemma children_distinct (files : List FileDiff) (n : ℕ) {found : List Child} (h : Distinct found)
    (htogether : Together (foldersOf found ++ ((((files.zipIdx n).map fun (file, index) =>
      (parts file.path, index)).filter fun entry => entry.1 ≠ []).map fun entry => entry.1.dropLast))) :
    Distinct ((files.zipIdx n).foldl (fun children (file, index) => insert children (parts file.path) index) found) := by
  induction files generalizing n found with
  | nil => exact h
  | cons file files ih =>
    rw [List.zipIdx_cons, List.foldl_cons]
    rw [List.zipIdx_cons, List.map_cons] at htogether
    by_cases hparts : parts file.path = []
    · rw [List.filter_cons_of_neg (by simpa using hparts)] at htogether
      simp only [hparts, insert]
      exact ih (n + 1) h htogether
    · rw [List.filter_cons_of_pos (by simpa using hparts), List.map_cons] at htogether
      have hjoin := List.dropLast_append_getLast hparts
      have hslash : ∀ name ∈ (parts file.path).dropLast, '/' ∉ name := fun name hname =>
        splitOn_slashless name (List.mem_of_mem_filter ((List.dropLast_sublist _).subset hname))
      have hfirst : Together (foldersOf found ++ [(parts file.path).dropLast]) := by
        refine htogether.sublist ((List.Sublist.refl _).append ?_)
        exact List.singleton_sublist.mpr List.mem_cons_self
      have hinsert : Distinct (insert found ((parts file.path).dropLast ++ [(parts file.path).getLast hparts]) n) :=
        h.insert hslash hfirst
      rw [hjoin] at hinsert
      refine ih (n + 1) hinsert ?_
      have hfolders := foldersOf_insert (parts file.path).dropLast ((parts file.path).getLast hparts) n found
      rw [hjoin] at hfolders
      rw [hfolders, List.append_assoc]
      exact htogether

lemma entries_children (diff : Diff) : entries (children diff) = placed diff := children_entries diff.files 0 []

lemma build_laid (diff : Diff) : Laid [] 0 (placed diff) (build diff) := by
  have hlaid := flatten_laid [] 0 (children diff)
  rwa [entries_children, under_nil] at hlaid

lemma build_paths (h : Together ((placed diff).map Prod.fst)) : (paths (build diff)).Nodup := by
  refine (flatten_paths [] 0 (children diff) ?_).2
  refine children_distinct diff.files 0 (.intro (by simp) (by simp) (by simp)) ?_
  have hsame : (placed diff).map Prod.fst = (listed diff).map fun entry => entry.1.dropLast := by
    rw [placed, List.map_map]
    rfl
  rw [hsame] at h
  exact h

lemma build_nested (diff : Diff) : Nested 0 (build diff) := by
  have hrest : ∀ height, 0 ≤ height → Nested height [] := fun _ _ => trivial
  have hnested := (build_laid diff).nested hrest 0 le_rfl
  rwa [List.append_nil] at hnested

end Diff

section Shown

variable {nodes : List Node} {closed : Chars → Bool} {filtered : Bool} {keep : ℕ → Bool} {index : ℕ}

lemma visible_file {file : ℕ} (h : FileAt nodes index file) : Visible closed filtered keep nodes nodes.length index ↔
    keep file = true ∧ Uncovered closed filtered nodes index := by
  constructor
  · rintro ⟨hopen, kept, -, ⟨file', ⟨depth', hnode'⟩, hkeep⟩, rfl | hbelow⟩
    · obtain ⟨depth, hnode⟩ := h
      rw [hnode] at hnode'
      obtain ⟨rfl, -⟩ := Node.file.inj (Option.some.inj hnode')
      exact ⟨hkeep, hopen⟩
    · obtain ⟨path, hfolder⟩ := hbelow.folder
      exact absurd hfolder h.not_folder
  · rintro ⟨hkeep, hopen⟩
    obtain ⟨depth, hnode⟩ := h
    exact ⟨hopen, index, (List.getElem?_eq_some_iff.mp hnode).1, ⟨file, ⟨depth, hnode⟩, hkeep⟩, Or.inl rfl⟩

lemma visible_folder {path : Chars} (h : FolderAt nodes index path) :
    Visible closed filtered keep nodes nodes.length index ↔
      (∃ kept, Kept keep nodes kept ∧ Holds nodes index kept) ∧ Uncovered closed filtered nodes index := by
  constructor
  · rintro ⟨hopen, kept, -, hkept, rfl | hbelow⟩
    · obtain ⟨file, hfile, -⟩ := hkept
      exact absurd h hfile.not_folder
    · exact ⟨⟨kept, hkept, hbelow⟩, hopen⟩
  · rintro ⟨⟨kept, hkept, hbelow⟩, hopen⟩
    obtain ⟨file, ⟨depth, hnode⟩, -⟩ := id hkept
    exact ⟨hopen, kept, (List.getElem?_eq_some_iff.mp hnode).1, hkept, Or.inr hbelow⟩

lemma Visible.outer {upTo outer : ℕ} (h : Visible closed filtered keep nodes upTo index) (houter : Holds nodes outer index) :
    Visible closed filtered keep nodes upTo outer := by
  obtain ⟨hopen, kept, hlt, hkept, hbelow⟩ := h
  refine ⟨fun above habove => hopen above (habove.trans houter), kept, hlt, hkept, Or.inr ?_⟩
  obtain rfl | hbelow := hbelow
  · exact houter
  · exact houter.trans hbelow

end Shown

theorem rows_listed (diff : Diff) (closed : Chars → Bool) (filtered : Bool) (keep : ℕ → Bool) :
    ((build diff).filterMap Node.file? = (listed diff).map Prod.snd ∧ Laid [] 0 (placed diff) (build diff)) ∧
      (Sorted diff ∨ Together ((placed diff).map Prod.fst) → (paths (build diff)).Nodup) ∧
      (shown (build diff) closed filtered keep).Pairwise (· < ·) ∧
      (∀ index file, FileAt (build diff) index file → (index ∈ shown (build diff) closed filtered keep ↔
        keep file = true ∧ Uncovered closed filtered (build diff) index)) ∧
      (∀ index path, FolderAt (build diff) index path → (index ∈ shown (build diff) closed filtered keep ↔
        (∃ kept, Kept keep (build diff) kept ∧ Holds (build diff) index kept) ∧
          Uncovered closed filtered (build diff) index)) ∧
      ∀ index ∈ shown (build diff) closed filtered keep, index < (build diff).length ∧
        ∀ outer, Holds (build diff) outer index → outer ∈ shown (build diff) closed filtered keep := by
  obtain ⟨hsorted, hmem⟩ := shown_rows closed filtered keep (build_nested diff)
  refine ⟨⟨?_, build_laid diff⟩, ?_, hsorted, ?_, ?_, ?_⟩
  · rw [(build_laid diff).files, placed, List.map_map]
    rfl
  · exact fun h => build_paths (h.elim Sorted.together id)
  · exact fun index file hfile => (hmem index).trans (visible_file hfile)
  · exact fun index path hfolder => (hmem index).trans (visible_folder hfolder)
  · intro index hindex
    have hvisible := (hmem index).mp hindex
    exact ⟨hvisible.lt, fun outer houter => (hmem outer).mpr (hvisible.outer houter)⟩

def fileAt (path : String) : FileDiff := { path, gitPath := path.toList, status := .modified }

def emptyParts : Diff := { files := [fileAt "", fileAt "a//c/x", fileAt "a/b/x", fileAt "a/c/y"], before := "" }

theorem rows_repeated : emptyParts.files.Pairwise (fun file file' => ¬ Before file'.path.toList file.path.toList) ∧
    (build emptyParts).filterMap Node.file? = [1, 2, 3] ∧
    paths (build emptyParts) = ["a/".toList, "a/c/".toList, "a/b/".toList, "a/c/".toList] := by
  decide +kernel

end Sheprd.Review.FileTree
