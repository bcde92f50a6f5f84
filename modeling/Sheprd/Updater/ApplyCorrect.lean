import Sheprd.Updater.Apply

namespace Sheprd.Updater

open Sheprd.Lib Sheprd.Lib.Exec

variable {Path Contents : Type} [DecidableEq Path]

structure Start (files : Names Path Contents) (destination target candidate backup : Path)
    (o c : Entry Contents) : Prop where
  original : files destination = some o
  prepared : files candidate = some c
  other : c.sameFile o = false
  lands : target = destination ∨ files target = none
  destination_candidate : destination ≠ candidate
  destination_backup : destination ≠ backup
  candidate_backup : candidate ≠ backup
  target_candidate : target ≠ candidate
  target_backup : target ≠ backup

structure Sound (files : Names Path Contents) (destination target backup : Path)
    (o c : Entry Contents) (r : Except (Error Path) Unit) (d : Disk Path Contents) : Prop where
  safe : ∀ f ∈ d.states, f destination = some o ∨ f backup = some o
  installed : r = .ok () → d.files target = some c ∧ d.files backup = some o
  restored : ∀ e, r = .error e → e.namesBackup = false → d.files = files

structure Unflushed (files : Names Path Contents) (faults : Call → Option ℕ) (parent : Option Path)
    (destination target backup : Path) (mode : Mode) (launch : Except (Error Path) Unit)
    (o c : Entry Contents) : Prop where
  free : files backup = none
  reaches : faults .backupExists = none ∧ faults .original = none ∧ faults .setAside = none ∧
    faults .install = none
  linux : mode = .linux → target = destination ∧ o.isDirectory = false ∧ c.isDirectory = false
  linked : target ≠ destination → faults .link = none
  launched : launch = .ok ()
  unflushed : parent = none ∨ faults .openParent ≠ none ∨ faults .syncParent ≠ none

section

variable {files : Names Path Contents} {destination target candidate backup : Path}
  {o c : Entry Contents} {faults : Call → Option ℕ} {mode : Mode}

def aside (mode : Mode) (files : Names Path Contents) (destination backup : Path)
    (o : Entry Contents) : Names Path Contents :=
  match mode with
  | .linux => Disk.put files backup (some o)
  | .mac => Disk.move files destination backup o

lemma aside_backup (mode : Mode) (files : Names Path Contents) (destination backup : Path)
    (o : Entry Contents) : aside mode files destination backup o backup = some o := by
  cases mode <;> simp [aside, Disk.put, Disk.move]

lemma aside_other {a : Path} (destination_ : a ≠ destination) (backup_ : a ≠ backup) :
    aside mode files destination backup o a = files a := by
  cases mode <;> simp [aside, Disk.put, Disk.move, destination_, backup_]

lemma wp_setAside (start : Start files destination target candidate backup o c)
    (free : files backup = none) {d : Disk Path Contents} (at_ : d.files = files)
    {Q : Except (Error Path) Unit → Disk Path Contents → Prop}
    (fails : ∀ e, (faults .setAside = none → mode = .linux ∧ o.isDirectory = true) →
      Q (.error (.io e)) d)
    (runs : faults .setAside = none → (mode = .linux → o.isDirectory = false) →
      Q (.ok ()) (d.write (aside mode files destination backup o))) :
    wp (setAside faults mode destination backup) Q d := by
  have original := start.original
  rw [← at_] at original free
  cases mode with
  | linux =>
    refine wp_mapErr.mpr (Files.wp_hardLink (fun e why => fails e fun clear => ⟨rfl, ?_⟩)
      fun e clear held file _ => ?_)
    · simpa [original, free] using why clear
    cases held.symm.trans original
    rw [at_]
    exact runs clear fun _ => file
  | mac =>
    refine wp_mapErr.mpr (Files.wp_rename_free free (fun e why => fails e fun clear => ?_)
      fun e clear held => ?_)
    · simp [original] at why
      exact absurd clear why
    cases held.symm.trans original
    rw [at_]
    exact runs clear nofun

lemma wp_install (start : Start files destination target candidate backup o c)
    {d : Disk Path Contents} (at_ : d.files = aside mode files destination backup o)
    {Q : Except IoError Unit → Disk Path Contents → Prop}
    (fails : ∀ e, (faults .install = none → mode = .linux ∧ target = destination ∧
      (o.isDirectory = true ∨ c.isDirectory = true)) → Q (.error e) d)
    (runs : faults .install = none →
      (mode = .linux → target = destination → o.isDirectory = false ∧ c.isDirectory = false) →
      Q (.ok ()) (d.write (Disk.move (aside mode files destination backup o) candidate target c))) :
    wp (Files.rename (faults .install) candidate target) Q d := by
  have held : d.files candidate = some c := by
    rw [at_, aside_other start.destination_candidate.symm start.candidate_backup, start.prepared]
  by_cases replaces : mode = .linux ∧ target = destination
  · obtain ⟨rfl, rfl⟩ := replaces
    have taken : d.files target = some o := by
      rw [at_]
      simp [aside, Disk.put, start.target_backup, start.original]
    refine Files.wp_rename_over taken ?_ (fun e why => fails e fun clear => ⟨rfl, rfl, ?_⟩)
      fun e clear held' source replaced => ?_
    · intro e held'
      cases held'.symm.trans held
      exact start.other
    · have reason := why clear
      rw [held] at reason
      exact (reason.resolve_left (by simp)).symm
    · cases held'.symm.trans held
      rw [at_]
      exact runs clear fun _ _ => ⟨replaced, source⟩
  · have empty : d.files target = none := by
      rw [at_]
      by_cases same : target = destination
      · cases mode with
        | linux => exact absurd ⟨rfl, same⟩ replaces
        | mac => simp [aside, Disk.move, Disk.put, same, start.destination_backup]
      · rw [aside_other same start.target_backup]
        exact start.lands.resolve_left same
    refine Files.wp_rename_free empty (fun e why => fails e fun clear => ?_) fun e clear held' => ?_
    · rw [held] at why
      cases why clear
    cases held'.symm.trans held
    rw [at_]
    exact runs clear fun linux same => absurd ⟨linux, same⟩ replaces

def Safe (destination backup : Path) (o : Entry Contents) (d : Disk Path Contents) : Prop :=
  ∀ f ∈ d.states, f destination = some o ∨ f backup = some o

omit [DecidableEq Path] in
lemma Safe.write {d : Disk Path Contents} (h : Safe destination backup o d)
    (files' : Names Path Contents) (kept : files' destination = some o ∨ files' backup = some o) :
    Safe destination backup o (d.write files') := List.forall_mem_cons.mpr ⟨kept, h⟩

def Undone (files : Names Path Contents) (destination backup : Path) (o : Entry Contents)
    (r : Except (Error Path) Unit) (d : Disk Path Contents) : Prop :=
  Safe destination backup o d ∧ ∃ e, r = .error e ∧ (e.namesBackup = false → d.files = files)

lemma aside_back (start : Start files destination target candidate backup o c)
    (free : files backup = none) :
    Disk.move (aside .mac files destination backup o) backup destination o = files := by
  funext a
  by_cases first : a = destination
  · simp [Disk.move, Disk.put, first, start.original]
  · by_cases second : a = backup
    · simp [Disk.move, Disk.put, second, start.destination_backup.symm, free]
    · simp [Disk.move, Disk.put, aside, first, second]

lemma aside_removed (free : files backup = none) :
    Disk.put (aside .linux files destination backup o) backup none = files := by
  funext a
  by_cases second : a = backup
  · simp [Disk.put, second, free]
  · simp [Disk.put, aside, second]

omit [DecidableEq Path] in
lemma undone_named {e : Error Path} {d : Disk Path Contents} (names : e.namesBackup = true)
    (safe : Safe destination backup o d) : Undone files destination backup o (.error e) d := by
  refine ⟨safe, e, rfl, fun other => ?_⟩
  rw [names] at other
  cases other

lemma wp_removeFailedLinuxBackup {d : Disk Path Contents}
    {Q : Except (Error Path) Unit → Disk Path Contents → Prop} (fails : ∀ e, Q (.error e) d)
    (runs : Q (.ok ()) (d.write (Disk.put d.files backup none))) :
    wp (removeFailedLinuxBackup faults destination backup o) Q d := by
  refine wp_bind.mpr (wp_mapErr.mpr (Files.wp_symlinkMetadata (fun _ _ => fails _) (fun _ => fails _)
    fun current _ _ => ?_))
  refine wp_bind.mpr (wp_mapErr.mpr (Files.wp_symlinkMetadata (fun _ _ => fails _) (fun _ => fails _)
    fun saved _ _ => ?_))
  refine wp_bind.mpr (wp_refuse.mpr ⟨fun _ => fails _, fun _ => ?_⟩)
  exact wp_mapErr.mpr (Files.wp_removeFile (fun _ => fails _) fun _ _ => runs)

lemma wp_undoSetAside (start : Start files destination target candidate backup o c)
    (free : files backup = none) {d : Disk Path Contents}
    (at_ : d.files = aside mode files destination backup o) (safe : Safe destination backup o d)
    (error : IoError) :
    wp (undoSetAside faults mode destination backup o error) (Undone files destination backup o) d := by
  unfold undoSetAside
  refine wp_ite.mpr ⟨?_, ?_⟩
  · rintro rfl
    have empty : d.files destination = none := by
      rw [at_]
      simp [aside, Disk.move, Disk.put, start.destination_backup]
    refine wp_bind.mpr (wp_attempt.mpr (Files.wp_rename_free empty (fun e _ => ?_) fun e _ held => ?_))
    · exact undone_named rfl safe
    · rw [at_, aside_backup] at held
      cases held
      rw [at_, aside_back start free]
      exact ⟨safe.write _ (.inl start.original), _, rfl, fun _ => rfl⟩
  · intro other
    have linux : mode = .linux := by
      cases mode with
      | linux => rfl
      | mac => exact absurd rfl other
    subst linux
    refine wp_bind.mpr (wp_attempt.mpr (wp_removeFailedLinuxBackup (fun e => ?_) ?_))
    · exact undone_named rfl safe
    · rw [at_, aside_removed free]
      exact ⟨safe.write _ (.inl start.original), _, rfl, fun _ => rfl⟩

structure Swapped (files : Names Path Contents) (destination target candidate backup : Path)
    (o c : Entry Contents) (now : Names Path Contents) : Prop where
  saved : now backup = some o
  placed : now target = some c
  taken : now candidate = none
  others : ∀ a, a ≠ destination → a ≠ target → a ≠ candidate → a ≠ backup → now a = files a

lemma swapped_install (mode : Mode) (start : Start files destination target candidate backup o c) :
    Swapped files destination target candidate backup o c
      (Disk.move (aside mode files destination backup o) candidate target c) where
  saved := by
    simp [Disk.move, Disk.put, start.target_backup.symm, start.candidate_backup.symm, aside_backup]
  placed := by simp [Disk.move, Disk.put]
  taken := by simp [Disk.move, Disk.put, start.target_candidate.symm]
  others a destination_ target_ candidate_ backup_ := by
    simp [Disk.move, Disk.put, target_, candidate_, aside_other destination_ backup_]

lemma Swapped.put {now : Names Path Contents} (start : Start files destination target candidate backup o c)
    (moved : target ≠ destination) (h : Swapped files destination target candidate backup o c now)
    (e : Option (Entry Contents)) :
    Swapped files destination target candidate backup o c (Disk.put now destination e) where
  saved := by simp [Disk.put, start.destination_backup.symm, h.saved]
  placed := by simp [Disk.put, moved, h.placed]
  taken := by simp [Disk.put, start.destination_candidate.symm, h.taken]
  others a destination_ target_ candidate_ backup_ := by
    simp [Disk.put, destination_, h.others a destination_ target_ candidate_ backup_]

lemma Swapped.back {now : Names Path Contents} (start : Start files destination target candidate backup o c)
    (free : files backup = none) (h : Swapped files destination target candidate backup o c now) :
    Disk.move (Disk.move now target candidate c) backup destination o = files := by
  funext a
  by_cases first : a = destination
  · simp [Disk.move, Disk.put, first, start.original]
  by_cases second : a = backup
  · simp [Disk.move, Disk.put, second, start.destination_backup.symm, free]
  by_cases third : a = candidate
  · simp [Disk.move, Disk.put, third, start.destination_candidate.symm, start.candidate_backup,
      start.prepared]
  by_cases fourth : a = target
  · have empty : files target = none := start.lands.resolve_left fun same => first (fourth.trans same)
    simp only [Disk.move, Disk.put, Function.update_apply, if_neg first, if_neg second, if_neg third,
      if_pos fourth]
    rw [fourth, empty]
  · simp only [Disk.move, Disk.put, Function.update_apply, if_neg first, if_neg second, if_neg third,
      if_neg fourth]
    exact h.others a first fourth third second

lemma wp_removeLegacyLink {d : Disk Path Contents} {legacy : Path}
    {Q : Except IoError Unit → Disk Path Contents → Prop} (fails : ∀ e, Q (.error e) d)
    (gone : d.files legacy = none → Q (.ok ()) d)
    (runs : Q (.ok ()) (d.write (Disk.put d.files legacy none))) :
    wp (removeLegacyLink faults legacy) Q d := by
  refine wp_bind.mpr (wp_attempt.mpr (Files.wp_symlinkMetadata (fun _ _ => fails _) gone
    fun e _ _ => ?_))
  refine wp_ite.mpr ⟨fun _ => ?_, fun _ => fails _⟩
  exact Files.wp_removeFile (fun _ => fails _) fun _ _ => runs

lemma wp_moveBack (start : Start files destination target candidate backup o c)
    (free : files backup = none) {d : Disk Path Contents}
    (swapped : Swapped files destination target candidate backup o c d.files)
    (safe : Safe destination backup o d) (empty : target = destination ∨ d.files destination = none) :
    wp (Files.rename (faults .moveBack) target candidate >>= fun _ =>
        Files.rename (faults .restore) backup destination)
      (fun r d' => Safe destination backup o d' ∧ (r = .ok () → d'.files = files)) d := by
  refine wp_bind.mpr (Files.wp_rename_free swapped.taken (fun e _ => ?_) fun e _ held => ?_)
  · exact ⟨safe, nofun⟩
  · cases held.symm.trans swapped.placed
    have saved : Disk.move d.files target candidate c backup = some o := by
      simp [Disk.move, Disk.put, start.candidate_backup.symm, start.target_backup.symm,
        swapped.saved]
    have safe' := safe.write (Disk.move d.files target candidate c) (.inr saved)
    have empty' : Disk.move d.files target candidate c destination = none := by
      obtain same | none := empty
      · simp [Disk.move, Disk.put, start.destination_candidate, same]
      · simp [Disk.move, Disk.put, start.destination_candidate, Function.update_apply, none]
    rw [andThen_ok]
    refine Files.wp_rename_free (d := d.write (Disk.move d.files target candidate c)) empty'
      (fun e _ => ⟨safe', nofun⟩) fun e _ held => ?_
    cases held.symm.trans saved
    have back := swapped.back start free
    refine ⟨safe'.write _ (.inl ?_), fun _ => back⟩
    change Disk.move (Disk.move d.files target candidate c) backup destination o destination = some o
    rw [back, start.original]

lemma wp_undoInstall (start : Start files destination target candidate backup o c)
    (free : files backup = none) {d : Disk Path Contents}
    (swapped : Swapped files destination target candidate backup o c d.files)
    (safe : Safe destination backup o d) (error : Error Path) :
    wp (undoInstall faults (decide (target ≠ destination)) destination target candidate backup error)
      (Undone files destination backup o) d := by
  have after : ∀ {r : Except IoError Unit} {d' : Disk Path Contents}
      (result : Except IoError Unit → Exec (Error Path) (Disk Path Contents) Unit),
      (∀ recovery, result (.error recovery) = throw (.restartRecovery error recovery backup)) →
      result (.ok ()) = throw error →
      (Safe destination backup o d' ∧ (r = .ok () → d'.files = files)) →
      andThen result (Undone files destination backup o) (.ok r) d' := by
    rintro (recovery | ⟨⟩) d' result failed undone ⟨safe', back⟩
    · rw [andThen_ok, failed]
      exact undone_named rfl safe'
    · rw [andThen_ok, undone]
      exact ⟨safe', error, rfl, fun _ => back rfl⟩
  refine wp_bind.mpr (wp_attempt.mpr (wp_mono ?_ fun r d' h => after _ (fun _ => rfl) rfl h))
  refine wp_bind.mpr (wp_when.mpr ⟨fun moved => ?_, fun stays => ?_⟩)
  · have moved := of_decide_eq_true moved
    have unlinked := swapped.put start moved none
    refine wp_removeLegacyLink (fun e => ⟨safe, by simp⟩) (fun gone => ?_) ?_
    · exact wp_moveBack start free swapped safe (.inr gone)
    · refine wp_moveBack start free unlinked (safe.write _ (.inr unlinked.saved)) (.inr ?_)
      simp [Disk.write, Disk.put]
  · have same : target = destination := by simpa using stays
    exact wp_moveBack start free swapped safe (.inl same)

variable {parent : Option Path} {launch : Except (Error Path) Unit}

omit [DecidableEq Path] in
lemma Undone.sound {r : Except (Error Path) Unit} {d : Disk Path Contents}
    (h : Undone files destination backup o r d) :
    Sound files destination target backup o c r d := by
  obtain ⟨safe, e, rfl, back⟩ := h
  refine ⟨safe, nofun, fun e' same => ?_⟩
  cases same
  exact back

omit [DecidableEq Path] in
lemma wp_syncParent {d : Disk Path Contents}
    {Q : Except (Error Path) Unit → Disk Path Contents → Prop}
    (fails : ∀ e, e.namesBackup = false →
      (parent = none ∨ faults .openParent ≠ none ∨ faults .syncParent ≠ none) → Q (.error e) d)
    (runs : ¬ (parent = none ∨ faults .openParent ≠ none ∨ faults .syncParent ≠ none) →
      Q (.ok ()) d) :
    wp (syncParent faults parent) Q d := by
  refine wp_bind.mpr (wp_require.mpr ⟨fun none => fails _ rfl (.inl none), fun a held => ?_⟩)
  refine wp_bind.mpr (wp_mapErr.mpr (Files.wp_sync (fun code h => ?_) fun opened => ?_))
  · exact fails _ rfl (.inr (.inl (by simp [h])))
  · refine wp_mapErr.mpr (Files.wp_sync (fun code h => ?_) fun synced => runs ?_)
    · exact fails _ rfl (.inr (.inr (by simp [h])))
    · simp [held, opened, synced]

lemma wp_begin (start : Start files destination target candidate backup o c) {d : Disk Path Contents}
    (at_ : d.files = Disk.move (aside mode files destination backup o) candidate target c)
    (safe : Safe destination backup o d) :
    wp (when (decide (target ≠ destination)) (linkLegacy faults destination) >>= fun _ =>
        lift id launch)
      (fun r d' => (Swapped files destination target candidate backup o c d'.files ∧
          Safe destination backup o d') ∧
        (r = .ok () ↔
          (target ≠ destination → faults .link = none ∧ mode = .mac) ∧ launch = .ok ())) d := by
  have swapped := swapped_install mode start
  rw [← at_] at swapped
  refine wp_bind.mpr (wp_when.mpr ⟨fun moved => ?_, fun stays => ?_⟩)
  · have moved := of_decide_eq_true moved
    have now : d.files destination = aside mode files destination backup o destination := by
      rw [at_]
      simp [Disk.move, Disk.put, moved.symm, start.destination_candidate]
    refine wp_mapErr.mpr (Files.wp_symlink (fun e why => ?_) fun clear empty => ?_)
    · refine ⟨⟨swapped, safe⟩, nofun, fun all => ?_⟩
      obtain ⟨clear, rfl⟩ := all.1 moved
      have taken := why clear
      rw [now] at taken
      simp [aside, Disk.move, Disk.put, start.destination_backup] at taken
    · have mac : mode = .mac := by
        cases mode with
        | mac => rfl
        | linux =>
          rw [now] at empty
          simp [aside, Disk.put, start.destination_backup, start.original] at empty
      have linked := swapped.put start moved (some (.symlink CURRENT))
      have safe' := safe.write
        (Disk.put d.files destination (some (.symlink CURRENT))) (.inr linked.saved)
      rw [Except.mapError, andThen_ok]
      refine wp_lift.mpr ⟨fun e failed => ?_, fun _ launched => ?_⟩
      · exact ⟨⟨linked, safe'⟩, nofun, fun all => by rw [failed] at all; cases all.2⟩
      · exact ⟨⟨linked, safe'⟩, fun _ => ⟨fun _ => ⟨clear, mac⟩, launched⟩, fun _ => rfl⟩
  · have same : target = destination := by simpa using stays
    rw [andThen_ok]
    refine wp_lift.mpr ⟨fun e failed => ?_, fun _ launched => ?_⟩
    · exact ⟨⟨swapped, safe⟩, nofun, fun all => by rw [failed] at all; cases all.2⟩
    · exact ⟨⟨swapped, safe⟩, fun _ => ⟨fun moved => absurd same moved, launched⟩, fun _ => rfl⟩

def Ends (files : Names Path Contents) (faults : Call → Option ℕ) (parent : Option Path)
    (destination target backup : Path) (mode : Mode) (launch : Except (Error Path) Unit)
    (o c : Entry Contents) (r : Except (Error Path) Unit) (d : Disk Path Contents) : Prop :=
  (¬ Unflushed files faults parent destination target backup mode launch o c ∧
      Sound files destination target backup o c r d) ∨
    (Unflushed files faults parent destination target backup mode launch o c ∧
      ∃ e, r = .error e ∧ e.namesBackup = false ∧ d.files ≠ files)

lemma wp_replace (faults : Call → Option ℕ) (parent : Option Path) (mode : Mode)
    (launch : Except (Error Path) Unit)
    (start : Start files destination target candidate backup o c) :
    wp (replace faults parent destination target candidate backup mode launch)
      (Ends files faults parent destination target backup mode launch o c)
      { files := files, past := [] } := by
  have untouched : ∀ e : Error Path,
      ¬ Unflushed files faults parent destination target backup mode launch o c →
        Ends files faults parent destination target backup mode launch o c (.error e)
          { files := files, past := [] } := by
    refine fun e not => .inl ⟨not, fun f hf => ?_, nofun, fun _ _ _ => rfl⟩
    rw [List.mem_singleton.mp hf]
    exact .inl start.original
  refine wp_bind.mpr (wp_mapErr.mpr (Files.wp_tryExists (fun code h => untouched _ fun late => ?_)
    fun clear => ?_))
  · simp [late.reaches.1] at h
  rw [Except.mapError, andThen_ok]
  refine wp_ite.mpr ⟨fun taken => ?_, fun empty => ?_⟩
  · refine untouched .recoveryExists fun late => ?_
    simp [late.free] at taken
  have free : files backup = none := by simpa using empty
  refine wp_bind.mpr (wp_mapErr.mpr (Files.wp_symlinkMetadata
    (fun code h => untouched _ fun late => ?_) (fun missing => ?_) fun e clear' held => ?_))
  · simp [late.reaches.2.1] at h
  · simp [start.original] at missing
  cases held.symm.trans start.original
  rw [Except.mapError, andThen_ok]
  refine wp_bind.mpr ?_
  refine wp_setAside start free rfl (fun e why => untouched _ fun late => ?_) fun clearAside file => ?_
  · obtain ⟨linux, directory⟩ := why late.reaches.2.2.1
    rw [(late.linux linux).2.1] at directory
    cases directory
  have safe : Safe destination backup o ({ files := files, past := [] } : Disk Path Contents) := by
    intro f hf
    rw [List.mem_singleton.mp hf]
    exact .inl start.original
  have safe' := safe.write (aside mode files destination backup o) (.inr (aside_backup ..))
  have undone : ∀ {r d}, ¬ Unflushed files faults parent destination target backup mode launch o c →
      Undone files destination backup o r d →
        Ends files faults parent destination target backup mode launch o c r d :=
    fun not h => .inl ⟨not, h.sound⟩
  rw [andThen_ok]
  refine wp_bind.mpr (wp_attempt.mpr ?_)
  refine wp_install start rfl (fun e why => ?_) fun clearInstall kinds => ?_
  · refine wp_mono (wp_undoSetAside start free rfl safe' e) fun r d h => undone (fun late => ?_) h
    obtain ⟨linux, -, directory⟩ := why late.reaches.2.2.2
    obtain ⟨-, original, prepared⟩ := late.linux linux
    simp [original, prepared] at directory
  have swapped := swapped_install mode start
  have safe'' := safe'.write
    (Disk.move (aside mode files destination backup o) candidate target c) (.inr swapped.saved)
  rw [andThen_ok]
  refine wp_bind.mpr (wp_attempt.mpr (wp_mono (wp_begin start rfl safe'') fun r d begun => ?_))
  obtain ⟨⟨swapped, safe⟩, whole⟩ := begun
  cases r with
  | error error =>
    refine wp_mono (wp_undoInstall start free swapped safe error) fun r d h => undone (fun late => ?_) h
    refine absurd (whole.mpr ⟨fun moved => ⟨late.linked moved, ?_⟩, late.launched⟩) nofun
    cases mode with
    | mac => rfl
    | linux => exact absurd (late.linux rfl).1 moved
  | ok _ =>
    obtain ⟨linked, launched⟩ := whole.mp rfl
    rw [andThen_ok]
    refine wp_syncParent (fun e plain why => ?_) fun flushed => ?_
    · refine .inr ⟨⟨free, ⟨clear, clear', clearAside, clearInstall⟩, fun linux => ?_,
        fun moved => (linked moved).1, launched, why⟩, e, rfl, plain, fun same => ?_⟩
      swap
      · have taken := swapped.taken
        rw [same, start.prepared] at taken
        cases taken
      have same : target = destination := by
        by_contra moved
        rw [linux] at linked
        cases (linked moved).2
      exact ⟨same, kinds linux same⟩
    · exact .inl ⟨fun late => flushed late.unflushed, safe,
        fun _ => ⟨swapped.placed, swapped.saved⟩, nofun⟩

theorem replace_sound (start : Start files destination target candidate backup o c) :
    let ended := exec (replace faults parent destination target candidate backup mode launch)
      { files := files, past := [] }
    Sound files destination target backup o c ended.1 ended.2 ↔
      ¬ Unflushed files faults parent destination target backup mode launch o c := by
  intro ended
  obtain ⟨not, sound⟩ | ⟨late, e, failed, plain, changed⟩ := wp_replace faults parent mode
    launch start
  · exact ⟨fun _ => not, fun _ => sound⟩
  · exact ⟨fun sound => absurd (sound.restored e failed plain) changed, fun not => absurd late not⟩

end

def unflushedFaults : Call → Option ℕ
  | .syncParent => some 5
  | _ => none

def oldInstalled : Names String String
  | "installed" => some (.file 1 1 "old")
  | "stage/candidate" => some (.file 1 2 "new")
  | _ => none

lemma oldInstalled_start : Start oldInstalled "installed" "installed" "stage/candidate" "stage/backup"
    (.file 1 1 "old") (.file 1 2 "new") where
  original := by decide
  prepared := by decide
  other := by decide
  lands := .inl rfl
  destination_candidate := by decide
  destination_backup := by decide
  candidate_backup := by decide
  target_candidate := by decide
  target_backup := by decide

def installFaults : Call → Option ℕ
  | .install => some 5
  | _ => none

def rolledBack : Except (Error String) Unit × Disk String String :=
  exec (replace installFaults (some "") "installed" "installed" "stage/candidate" "stage/backup" .linux
    (.ok ())) { files := oldInstalled, past := [] }

theorem replace_sound_rolledBack : rolledBack.1 = .error (.io (.fault 5)) ∧
    Sound oldInstalled "installed" "installed" "stage/backup" (.file 1 1 "old") (.file 1 2 "new")
      rolledBack.1 rolledBack.2 :=
  ⟨rfl, (replace_sound oldInstalled_start).mpr fun late => nomatch late.reaches.2.2.2⟩

theorem unflushed_unrestored :
    ¬ Sound oldInstalled "installed" "installed" "stage/backup" (.file 1 1 "old") (.file 1 2 "new")
      (exec (replace unflushedFaults (some "") "installed" "installed" "stage/candidate" "stage/backup"
        .linux (.ok ())) { files := oldInstalled, past := [] }).1
      (exec (replace unflushedFaults (some "") "installed" "installed" "stage/candidate" "stage/backup"
        .linux (.ok ())) { files := oldInstalled, past := [] }).2 := by
  intro sound
  have same := congrFun (sound.restored (.io (.fault 5)) (by rfl) rfl) "stage/candidate"
  revert same
  decide

end Sheprd.Updater
