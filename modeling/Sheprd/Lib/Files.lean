import Sheprd.Lib.Exec

namespace Sheprd.Lib

inductive IoError where
  | notFound
  | alreadyExists
  | wrongKind
  | fault (code : ℕ)

inductive Entry (Contents : Type) where
  | file (dev ino : ℕ) (contents : Contents)
  | directory (contents : Contents)
  | symlink (points : String)
  deriving DecidableEq

namespace Entry

variable {Contents : Type}

def isDirectory : Entry Contents → Bool
  | directory _ => true
  | _ => false

def isSymlink : Entry Contents → Bool
  | symlink _ => true
  | _ => false

def sameFile : Entry Contents → Entry Contents → Bool
  | file dev ino _, file dev' ino' _ => dev = dev' && ino = ino'
  | _, _ => false

end Entry

abbrev Names (Path Contents : Type) := Path → Option (Entry Contents)

structure Disk (Path Contents : Type) where
  files : Names Path Contents
  past : List (Names Path Contents)

namespace Disk

variable {Path Contents : Type} [DecidableEq Path]

def states (d : Disk Path Contents) : List (Names Path Contents) := d.files :: d.past

def write (d : Disk Path Contents) (files : Names Path Contents) : Disk Path Contents where
  files := files
  past := d.files :: d.past

def put (files : Names Path Contents) (a : Path) (e : Option (Entry Contents)) :
    Names Path Contents := Function.update files a e

def move (files : Names Path Contents) (a b : Path) (e : Entry Contents) : Names Path Contents :=
  put (put files a none) b (some e)

end Disk

namespace Files

open Exec

variable {Path Contents : Type} [DecidableEq Path]

def failing {α : Type} (fault : Option ℕ) (m : Exec IoError (Disk Path Contents) α) :
    Exec IoError (Disk Path Contents) α :=
  match fault with
  | some code => throw (.fault code)
  | none => m

def tryExists (fault : Option ℕ) (a : Path) : Exec IoError (Disk Path Contents) Bool :=
  failing fault do return ((← get).files a).isSome

def symlinkMetadata (fault : Option ℕ) (a : Path) :
    Exec IoError (Disk Path Contents) (Entry Contents) :=
  failing fault do require ((← get).files a) .notFound

def hardLink (fault : Option ℕ) (a b : Path) : Exec IoError (Disk Path Contents) Unit :=
  failing fault do
    let d ← get
    let e ← require (d.files a) .notFound
    refuse e.isDirectory .wrongKind
    refuse (d.files b).isSome .alreadyExists
    set (d.write (Disk.put d.files b (some e)))

def rename (fault : Option ℕ) (a b : Path) : Exec IoError (Disk Path Contents) Unit :=
  failing fault do
    let d ← get
    let e ← require (d.files a) .notFound
    match d.files b with
    | none => set (d.write (Disk.move d.files a b e))
    | some old =>
        if e.sameFile old then pure ()
        else if e.isDirectory || old.isDirectory then throw .wrongKind
        else set (d.write (Disk.move d.files a b e))

def symlink (fault : Option ℕ) (points : String) (a : Path) : Exec IoError (Disk Path Contents) Unit :=
  failing fault do
    let d ← get
    refuse (d.files a).isSome .alreadyExists
    set (d.write (Disk.put d.files a (some (.symlink points))))

def removeFile (fault : Option ℕ) (a : Path) : Exec IoError (Disk Path Contents) Unit :=
  failing fault do
    let d ← get
    let e ← require (d.files a) .notFound
    refuse e.isDirectory .wrongKind
    set (d.write (Disk.put d.files a none))

def sync (fault : Option ℕ) : Exec IoError (Disk Path Contents) Unit := failing fault (pure ())

variable {α : Type} {fault : Option ℕ} {d : Disk Path Contents}

omit [DecidableEq Path] in
lemma wp_failing {m : Exec IoError (Disk Path Contents) α}
    {Q : Except IoError α → Disk Path Contents → Prop}
    (fails : ∀ code, fault = some code → Q (.error (.fault code)) d) (runs : fault = none → wp m Q d) :
    wp (failing fault m) Q d := by
  cases fault with
  | some code => exact fails code rfl
  | none => exact runs rfl

omit [DecidableEq Path] in
lemma wp_tryExists {a : Path} {Q : Except IoError Bool → Disk Path Contents → Prop}
    (fails : ∀ code, fault = some code → Q (.error (.fault code)) d)
    (runs : fault = none → Q (.ok (d.files a).isSome) d) : wp (tryExists fault a) Q d :=
  wp_failing fails runs

omit [DecidableEq Path] in
lemma wp_symlinkMetadata {a : Path} {Q : Except IoError (Entry Contents) → Disk Path Contents → Prop}
    (fails : ∀ code, fault = some code → Q (.error (.fault code)) d)
    (missing : d.files a = none → Q (.error .notFound) d)
    (runs : ∀ e, fault = none → d.files a = some e → Q (.ok e) d) :
    wp (symlinkMetadata fault a) Q d := by
  refine wp_failing fails fun free => ?_
  refine wp_bind.mpr (wp_get.mpr (wp_require.mpr ⟨missing, fun e held => runs e free held⟩))

lemma wp_hardLink {a b : Path} {Q : Except IoError Unit → Disk Path Contents → Prop}
    (fails : ∀ e, (fault = none → d.files a = none ∨ (d.files a).any Entry.isDirectory ∨
      (d.files b).isSome) → Q (.error e) d)
    (runs : ∀ e, fault = none → d.files a = some e → e.isDirectory = false → d.files b = none →
      Q (.ok ()) (d.write (Disk.put d.files b (some e)))) :
    wp (hardLink fault a b) Q d := by
  refine wp_failing (fun code h => fails _ (by simp [h])) fun free => ?_
  refine wp_bind.mpr (wp_get.mpr (wp_bind.mpr (wp_require.mpr ⟨?_, fun e held => ?_⟩)))
  · exact fun none => fails _ fun _ => .inl none
  · refine wp_bind.mpr (wp_refuse.mpr ⟨fun directory => ?_, fun other => ?_⟩)
    · exact fails _ fun _ => .inr (.inl (by rw [held]; exact directory))
    · refine wp_bind.mpr (wp_refuse.mpr ⟨fun taken => fails _ fun _ => .inr (.inr taken), fun empty => ?_⟩)
      exact runs e free held (eq_false_of_ne_true other) (by simpa using empty)

lemma wp_rename_free {a b : Path} {Q : Except IoError Unit → Disk Path Contents → Prop}
    (empty : d.files b = none) (fails : ∀ e, (fault = none → d.files a = none) → Q (.error e) d)
    (runs : ∀ e, fault = none → d.files a = some e →
      Q (.ok ()) (d.write (Disk.move d.files a b e))) :
    wp (rename fault a b) Q d := by
  refine wp_failing (fun code h => fails _ (by simp [h])) fun free => ?_
  refine wp_bind.mpr (wp_get.mpr (wp_bind.mpr (wp_require.mpr ⟨?_, fun e held => ?_⟩)))
  · exact fun none => fails _ fun _ => none
  · change wp (match d.files b with
      | none => _
      | some old => _) Q d
    rw [empty]
    exact runs e free held

lemma wp_rename_over {a b : Path} {old : Entry Contents}
    {Q : Except IoError Unit → Disk Path Contents → Prop}
    (taken : d.files b = some old) (apart : ∀ e, d.files a = some e → e.sameFile old = false)
    (fails : ∀ e, (fault = none → d.files a = none ∨ (d.files a).any Entry.isDirectory ∨
      old.isDirectory) → Q (.error e) d)
    (runs : ∀ e, fault = none → d.files a = some e → e.isDirectory = false →
      old.isDirectory = false → Q (.ok ()) (d.write (Disk.move d.files a b e))) :
    wp (rename fault a b) Q d := by
  refine wp_failing (fun code h => fails _ (by simp [h])) fun free => ?_
  refine wp_bind.mpr (wp_get.mpr (wp_bind.mpr (wp_require.mpr ⟨?_, fun e held => ?_⟩)))
  · exact fun none => fails _ fun _ => .inl none
  · change wp (match d.files b with
      | none => _
      | some old => _) Q d
    rw [taken]
    refine wp_ite.mpr ⟨fun same => ?_, fun _ => wp_ite.mpr ⟨fun kind => ?_, fun kind => ?_⟩⟩
    · rw [apart e held] at same
      cases same
    · refine fails _ fun _ => .inr ?_
      rw [held]
      exact (Bool.or_eq_true ..).mp kind
    · obtain ⟨source, replaced⟩ := (Bool.or_eq_false_iff ..).mp (eq_false_of_ne_true kind)
      exact runs e free held source replaced

lemma wp_symlink {points : String} {a : Path} {Q : Except IoError Unit → Disk Path Contents → Prop}
    (fails : ∀ e, (fault = none → (d.files a).isSome) → Q (.error e) d)
    (runs : fault = none → d.files a = none →
      Q (.ok ()) (d.write (Disk.put d.files a (some (.symlink points))))) :
    wp (symlink fault points a) Q d := by
  refine wp_failing (fun code h => fails _ (by simp [h])) fun free => ?_
  refine wp_bind.mpr (wp_get.mpr (wp_bind.mpr (wp_refuse.mpr ⟨fun taken => ?_, fun empty => ?_⟩)))
  · exact fails _ fun _ => taken
  · exact runs free (by simpa using empty)

lemma wp_removeFile {a : Path} {Q : Except IoError Unit → Disk Path Contents → Prop}
    (fails : ∀ e, Q (.error e) d)
    (runs : ∀ e, d.files a = some e → Q (.ok ()) (d.write (Disk.put d.files a none))) :
    wp (removeFile fault a) Q d := by
  refine wp_failing (fun code _ => fails _) fun _ => ?_
  refine wp_bind.mpr (wp_get.mpr (wp_bind.mpr (wp_require.mpr ⟨fun _ => fails _, fun e held => ?_⟩)))
  exact wp_bind.mpr (wp_refuse.mpr ⟨fun _ => fails _, fun _ => runs e held⟩)

omit [DecidableEq Path] in
lemma wp_sync {Q : Except IoError Unit → Disk Path Contents → Prop}
    (fails : ∀ code, fault = some code → Q (.error (.fault code)) d) (runs : fault = none → Q (.ok ()) d) :
    wp (sync fault) Q d := wp_failing fails runs

end Files

end Sheprd.Lib
