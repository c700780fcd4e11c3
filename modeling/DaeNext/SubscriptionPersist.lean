/-
The file and database transaction of a subscription (`dae-product-persistence/src/lib.rs`,
`dae-product-subscription/src/persistence.rs`).

Every create, write, rename, remove and database commit is one durable step on the files of one
transaction, which have distinct names; a crash leaves what the steps so far have done. A restore
moves the backup onto the target, and recovery restores whenever there is a journal without a
commit: if the backup is already moved and the journal still there, the second restore fails. A
rollback that could not restore still removes the journal, and recovery without a journal removes
the backup. The names that a journal is checked for are those that `prepare` chose.
-/
import Mathlib.Data.List.Infix

set_option autoImplicit false

namespace DaeNext.SubscriptionPersist

open List

structure SubscriptionPersistJournal where
  generation : String
  backup : Bool
deriving DecidableEq, Repr

structure Disk where
  target : Option (List UInt8) := none
  candidate : Option (List UInt8) := none
  backup : Option (List UInt8) := none
  journal : Option SubscriptionPersistJournal := none
  journal_next : Option (Option SubscriptionPersistJournal) := none
  database : Option String := none
deriving DecidableEq, Repr

inductive Op where
  | reserve_candidate
  | write_candidate (content : List UInt8)
  | reserve_backup
  | copy_backup
  | create_next
  | write_next (journal : SubscriptionPersistJournal)
  | rename_next
  | rename_candidate
  | record_generation (generation : String)
  | rename_backup
  | remove_target
  | remove_journal
  | remove_next
  | remove_candidate
  | remove_backup
deriving DecidableEq, Repr

def Op.apply (disk : Disk) : Op → Disk
  | .reserve_candidate => { disk with candidate := some [] }
  | .write_candidate content => { disk with candidate := some content }
  | .reserve_backup => { disk with backup := some [] }
  | .copy_backup => { disk with backup := disk.target }
  | .create_next => { disk with journal_next := some none }
  | .write_next journal => { disk with journal_next := some (some journal) }
  | .rename_next => { disk with journal := disk.journal_next.join, journal_next := none }
  | .rename_candidate => { disk with target := disk.candidate, candidate := none }
  | .record_generation generation => { disk with database := some generation }
  | .rename_backup => { disk with target := disk.backup, backup := none }
  | .remove_target => { disk with target := none }
  | .remove_journal => { disk with journal := none }
  | .remove_next => { disk with journal_next := none }
  | .remove_candidate => { disk with candidate := none }
  | .remove_backup => { disk with backup := none }

def run (disk : Disk) (ops : List Op) : Disk := ops.foldl Op.apply disk

/-! ## Transactions -/

def prepare (content : List UInt8) (generation : String) (existed : Bool) : List Op :=
  [.reserve_candidate, .write_candidate content]
    ++ (if existed then [.reserve_backup, .copy_backup] else [])
    ++ [.create_next, .write_next ⟨generation, existed⟩, .rename_next]

def restore_transaction_target (backup : Bool) : List Op :=
  if backup then [.rename_backup] else [.remove_target]

def cleanup_transaction_artifacts (backup : Bool) : List Op :=
  [.remove_journal, .remove_next, .remove_candidate] ++ if backup then [.remove_backup] else []

/-- How a transaction ends: with its commit, or by `rollback` before or after `activate`. -/
inductive Ending where
  | finish
  | rollback_prepared
  | rollback_activated
deriving DecidableEq, Repr

def transaction (content : List UInt8) (generation : String) (existed : Bool) : Ending → List Op
  | .finish => prepare content generation existed
      ++ [.rename_candidate, .record_generation generation] ++ cleanup_transaction_artifacts existed
  | .rollback_prepared => prepare content generation existed ++ cleanup_transaction_artifacts existed
  | .rollback_activated => prepare content generation existed ++ [.rename_candidate]
      ++ restore_transaction_target existed ++ cleanup_transaction_artifacts existed

def cleanup_orphan_artifacts : List Op := [.remove_next, .remove_candidate, .remove_backup]

/-- The steps of `recover_subscription_persist_transaction`. -/
def recover_ops (disk : Disk) : Except String (List Op) :=
  match disk.journal with
  | none => .ok cleanup_orphan_artifacts
  | some journal =>
    if disk.database = some journal.generation then
      if disk.target = none then .error "committed durable target is missing"
      else .ok (cleanup_transaction_artifacts journal.backup)
    else if journal.backup = true ∧ disk.backup = none then
      .error "No such file or directory (os error 2)"
    else .ok (restore_transaction_target journal.backup ++ cleanup_transaction_artifacts journal.backup)

/-! ## Crashes -/

/-- Recoveries cut short, none of them right after the restore. -/
inductive Interrupted (disk : Disk) : Disk → Prop where
  | start : Interrupted disk disk
  | recovery {middle : Disk} {ops : List Op} (k : Nat) : Interrupted disk middle →
    recover_ops middle = .ok ops → (ops.take k).getLast? ≠ some .rename_backup →
    Interrupted disk (run middle (ops.take k))

/-- What a recovery can bring back: nothing is to be done for the target, or the journal says what. -/
structure Recoverable (old : Option (List UInt8)) (content : List UInt8) (generation : String)
    (disk : Disk) : Prop where
  journal : ∀ journal, disk.journal = some journal → journal = ⟨generation, old.isSome⟩
  free : disk.journal = none →
    disk.target = if disk.database = some generation then some content else old
  committed : disk.journal ≠ none → disk.database = some generation → disk.target = some content
  backup : disk.journal ≠ none → disk.database ≠ some generation → old ≠ none → disk.backup = old
  no_backup : old = none → disk.backup = none

variable {old : Option (List UInt8)} {content : List UInt8} {generation : String} {disk : Disk}
  {recorded : Option String}

theorem transaction_recoverable (hnew : recorded ≠ some generation) (ending : Ending) {ops : List Op}
    (hops : ops <+: transaction content generation old.isSome ending)
    (hcut : ops.getLast? ≠ some .rename_backup) :
    Recoverable old content generation (run { target := old, database := recorded } ops) := by
  rw [← mem_inits] at hops
  cases old <;> cases ending
  all_goals
    simp only [transaction, prepare, cleanup_transaction_artifacts, restore_transaction_target,
      Option.isSome_none, Option.isSome_some, if_true, Bool.false_eq_true, if_false, append_nil,
      cons_append, nil_append, List.inits, map_cons, map_nil, mem_cons,
      not_mem_nil, or_false] at hops
    repeat' (obtain rfl | hops := hops)
  all_goals first
    | exact absurd rfl hcut
    | constructor <;> simp [run, Op.apply, hnew]

section

variable (h : Recoverable old content generation disk)

include h

/-- What recovery is about to do, by the journal and the database. -/
theorem Recoverable.ops :
    (disk.journal = none ∧ recover_ops disk = .ok cleanup_orphan_artifacts)
    ∨ (disk.journal = some ⟨generation, old.isSome⟩ ∧ disk.database = some generation
      ∧ recover_ops disk = .ok (cleanup_transaction_artifacts old.isSome))
    ∨ disk.journal = some ⟨generation, old.isSome⟩ ∧ disk.database ≠ some generation
      ∧ recover_ops disk = .ok (restore_transaction_target old.isSome
        ++ cleanup_transaction_artifacts old.isSome) := by
  cases hjournal : disk.journal with
  | none => exact .inl ⟨rfl, by rw [recover_ops, hjournal]⟩
  | some journal =>
    obtain rfl := h.journal journal hjournal
    have hsome : disk.journal ≠ none := by
      rw [hjournal]
      exact Option.some_ne_none _
    unfold recover_ops
    rw [hjournal]
    dsimp only
    by_cases hdatabase : disk.database = some generation
    · refine .inr (.inl ⟨rfl, hdatabase, ?_⟩)
      rw [if_pos hdatabase, h.committed hsome hdatabase]
      rfl
    · refine .inr (.inr ⟨rfl, hdatabase, ?_⟩)
      rw [if_neg hdatabase, if_neg]
      rintro ⟨hold, hnone⟩
      rw [h.backup hsome hdatabase (Option.isSome_iff_ne_none.mp hold)] at hnone
      rw [hnone] at hold
      cases hold

/-- A recovery may stop anywhere but right after the restore. -/
theorem Recoverable.recovery {ops first : List Op}
    (hops : recover_ops disk = .ok ops) (hfirst : first <+: ops)
    (hcut : first.getLast? ≠ some .rename_backup) :
    Recoverable old content generation (run disk first) := by
  obtain ⟨-, hfree, hcommitted, hbackup, hno⟩ := id h
  rw [← mem_inits] at hfirst
  obtain ⟨hjournal, hrecover⟩ | ⟨hjournal, hdatabase, hrecover⟩ | ⟨hjournal, hdatabase, hrecover⟩ := h.ops
  all_goals
    obtain rfl := Except.ok.inj (hrecover.symm.trans hops)
    cases old
  all_goals
    simp only [cleanup_orphan_artifacts, cleanup_transaction_artifacts, restore_transaction_target,
      Option.isSome_none, Option.isSome_some, if_true, Bool.false_eq_true, if_false, append_nil,
      cons_append, nil_append, List.inits, map_cons, map_nil, mem_cons,
      not_mem_nil, or_false] at hfirst
    repeat' (obtain rfl | hfirst := hfirst)
  all_goals first
    | exact absurd rfl hcut
    | exact h
    | constructor <;> simp_all [run, Op.apply]

end

/-- After a crash at any step but right after a restore, the next recovery brings the new content
if the database has the generation and the old one otherwise, and removes the other files. -/
theorem interrupted_transaction_recovers (hnew : recorded ≠ some generation) {ending : Ending} {k : Nat}
    (hcut : ((transaction content generation old.isSome ending).take k).getLast? ≠ some .rename_backup)
    (hinterrupted : Interrupted (run { target := old, database := recorded }
      ((transaction content generation old.isSome ending).take k)) disk) :
    ∃ ops, recover_ops disk = .ok ops
      ∧ run disk ops = { target := if disk.database = some generation then some content else old
                         database := disk.database } := by
  have h : Recoverable old content generation disk := by
    induction hinterrupted with
    | start => exact transaction_recoverable hnew ending ( take_prefix _ _) hcut
    | recovery k _ hops hcut ih => exact ih.recovery hops ( take_prefix _ _) hcut
  clear hinterrupted
  obtain ⟨-, hfree, hcommitted, hbackup, hno⟩ := id h
  obtain ⟨target, candidate, backup, journal, journal_next, database⟩ := disk
  obtain ⟨hjournal, hrecover⟩ | ⟨hjournal, hdatabase, hrecover⟩ | ⟨hjournal, hdatabase, hrecover⟩ := h.ops
  all_goals
    refine ⟨_, hrecover, ?_⟩
    cases old <;> simp_all [run, Op.apply, cleanup_orphan_artifacts, cleanup_transaction_artifacts,
      restore_transaction_target]

theorem interrupted_transaction_recovers_activated :
    ∃ ops, recover_ops (run { target := some [1] } ((transaction [2] "g" true .finish).take 8)) = .ok ops
      ∧ run (run { target := some [1] } ((transaction [2] "g" true .finish).take 8)) ops
        = { target := some [1] } :=
  @interrupted_transaction_recovers (some [1]) [2] "g" _ none (by decide) .finish 8 (by decide) .start

/-- A recovery cut short after its restore cannot be repeated. -/
theorem second_restore_fails :
    let disk := run { target := some [1] } ((transaction [2] "g" true .finish).take 8)
    recover_ops disk = .ok (.rename_backup :: cleanup_transaction_artifacts true)
      ∧ recover_ops (run disk [.rename_backup]) = .error "No such file or directory (os error 2)" := by
  decide

/-! ## Failing calls -/

/-- Which calls of one rollback fail, without effect. -/
structure Faults where
  restore : Bool
  restore_sync : Bool
  journal : Bool
  journal_next : Bool
  candidate : Bool
  backup : Bool
  cleanup_sync : Bool
deriving DecidableEq, Repr

/-- The transaction that was activated over an existing target. -/
structure Rollback where
  disk : Disk
  activated : Bool := true
  finished : Bool := false
deriving DecidableEq, Repr

def try_restore (faults : Faults) (disk : Disk) : Bool × Disk :=
  if faults.restore || disk.backup.isNone then (false, disk)
  else (!faults.restore_sync, run disk [.rename_backup])

def try_cleanup (faults : Faults) (remove_backup : Bool) (disk : Disk) : Bool × Disk :=
  let calls := [(faults.journal, Op.remove_journal), (faults.journal_next, .remove_next),
    (faults.candidate, .remove_candidate)] ++ if remove_backup then [(faults.backup, .remove_backup)] else []
  (calls.all (!·.1) && !faults.cleanup_sync, run disk ((calls.filter (!·.1)).map (·.2)))

def rollback (faults : Faults) (self : Rollback) : Rollback :=
  let (restored, disk) := if self.activated then try_restore faults self.disk else (true, self.disk)
  let (cleaned, disk) := try_cleanup faults restored disk
  { disk, activated := self.activated && !restored, finished := restored && cleaned }

/-- `drop` rolls back once more what was not finished. -/
def drop (faults : Faults) (self : Rollback) : Rollback :=
  if self.finished then self else rollback faults self

def recover (disk : Disk) : Disk :=
  match recover_ops disk with
  | .ok ops => run disk ops
  | .error _ => disk

section Stages

variable {faults : Faults} {activated finished moved journal remove_backup : Bool}
  {before new : List UInt8}

/-- How far a rollback has come: the backup is moved onto the target or not, the journal is still
there or not. -/
def stage (before new : List UInt8) (generation : String) (recorded : Option String)
    (moved journal : Bool) : Disk where
  target := some (if moved then before else new)
  backup := if moved then none else some before
  journal := if journal then some ⟨generation, true⟩ else none
  database := recorded

theorem try_cleanup_stage (h : remove_backup = true → moved = true) :
    (try_cleanup faults remove_backup (stage before new generation recorded moved journal)).2
      = stage before new generation recorded moved (journal && faults.journal) := by
  obtain ⟨_, _, a, b, c, d, _⟩ := faults
  cases moved
  · rw [Bool.eq_false_iff.mpr fun hremove => Bool.false_ne_true (h hremove)]
    cases a <;> cases b <;> cases c <;> cases journal <;> rfl
  · cases a <;> cases b <;> cases c <;> cases d <;> cases remove_backup <;> cases journal <;> rfl

theorem rollback_stage (h : activated = false → moved = true) :
    (rollback faults ⟨stage before new generation recorded moved journal, activated, finished⟩).disk
      = stage before new generation recorded (moved || !faults.restore) (journal && faults.journal) := by
  unfold rollback
  cases activated with
  | false =>
    obtain rfl := h rfl
    exact try_cleanup_stage fun _ => rfl
  | true =>
    unfold try_restore
    cases faults.restore with
    | true =>
      rw [Bool.not_true, Bool.or_false]
      exact try_cleanup_stage nofun
    | false =>
      rw [Bool.not_false, Bool.or_true]
      cases moved with
      | true => exact try_cleanup_stage fun _ => rfl
      | false => exact @try_cleanup_stage _ _ faults true journal _ before new fun _ => rfl

theorem rollback_activated
    (h : (rollback faults ⟨stage before new generation recorded moved journal, true, finished⟩).activated
      = false) : faults.restore = false := by
  cases hrestore : faults.restore with
  | false => rfl
  | true =>
    unfold rollback try_restore at h
    rw [hrestore] at h
    cases h

theorem recover_stage (h : recorded ≠ some generation) :
    (recover (stage before new generation recorded moved journal)).target
      = some (if moved || journal then before else new) := by
  unfold recover recover_ops stage
  cases moved <;> cases journal <;> simp [h, run, Op.apply, cleanup_orphan_artifacts,
    restore_transaction_target, cleanup_transaction_artifacts]

/-- The content from before survives a failed rollback unless both restores failed and the journal
was removed. -/
theorem failed_rollback_keeps_content_iff {first second : Faults} (hne : before ≠ new)
    (hdatabase : recorded ≠ some generation)
    (hfailed : (rollback first ⟨stage before new generation recorded false true, true, false⟩).finished = false) :
    (recover (drop second
        (rollback first ⟨stage before new generation recorded false true, true, false⟩)).disk).target = some before
      ↔ ¬(first.restore = true ∧ second.restore = true ∧ (first.journal && second.journal) = false) := by
  rw [drop, if_neg (by rw [hfailed]; exact Bool.false_ne_true)]
  have hdisk := @rollback_stage generation recorded first true false false true before new nofun
  have hactivated := @rollback_activated generation recorded first false false true before new
  generalize rollback first ⟨stage before new generation recorded false true, true, false⟩ = self
    at hdisk hactivated
  obtain ⟨disk, activated, finished⟩ := self
  obtain rfl : disk = _ := hdisk
  rw [rollback_stage fun h => by rw [hactivated h]; rfl, recover_stage hdatabase, Option.some_inj]
  cases first.restore <;> cases second.restore <;> cases first.journal <;> cases second.journal
  all_goals simp [hne.symm]

theorem failed_rollback_keeps_content_iff_journal :
    (recover (drop ⟨true, false, true, false, false, false, false⟩
      (rollback ⟨true, false, true, false, false, false, false⟩
        ⟨stage [1] [2] "g" none false true, true, false⟩)).disk).target = some [1] :=
  (failed_rollback_keeps_content_iff (by decide) (by decide) (by decide)).mpr (by decide)

/-- The rename fails twice; the journal is gone, and recovery removes the backup. -/
theorem failed_restore_loses_content :
    let faults : Faults := ⟨true, false, false, false, false, false, false⟩
    let failed := rollback faults ⟨stage [1] [2] "g" none false true, true, false⟩
    failed.finished = false ∧ recover (drop faults failed).disk = { target := some [2] } := by
  decide

end Stages

end DaeNext.SubscriptionPersist
