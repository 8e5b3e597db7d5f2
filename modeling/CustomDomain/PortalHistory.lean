import CustomDomain.AuditSafety

/-!
# The history of a domain in the portal

`list_events` reads the events of a domain in the order of their stamps, at most a
page of them, and the page of the portal shows them in the opposite order.
-/

namespace CustomDomain

open Transaction

/-- The events of a domain in the order of their stamps. -/
def Database.orderedEvents (db : Database) (domainId : Uuid) : List DomainEvent :=
  (db.events.filter fun event => event.domainId = domainId).mergeSort
    fun first second => first.createdAt ≤ second.createdAt

/-- `list_events`. -/
def listEvents (application : Application) (domainId : Uuid) (limit : Nat) :
    Sql (List DomainEvent) := do
  let domain ← getDomain application domainId true
  .read fun view => (view.orderedEvents domain.id).take (max 1 (min limit maxPageSize))

/-- The events that `_domain_page` shows. -/
def domainPageEvents (application : Application) (domainId : Uuid) : Sql (List DomainEvent) := do
  let events ← listEvents application domainId 200
  return events.reverse

/-- The events of a domain were recorded by `record_event`, among any other changes. -/
inductive Recordings (domainId : Uuid) : Database → Prop where
  | none {db : Database} (empty : db.trail domainId = []) : Recordings domainId db
  | recorded {db after : Database} (earlier : Recordings domainId db) {domain : Domain}
      (here : domain.id = domainId) (payload : EventPayload) (now : Time)
      (ran : (recordEvent domain payload now).run db = (.ok (), after)) :
      Recordings domainId after
  | elsewhere {db after : Database} (earlier : Recordings domainId db)
      (same : after.trail domainId = db.trail domainId) : Recordings domainId after

theorem Database.trail_recorded (db : Database) (domain : Domain) (payload : EventPayload)
    (now : Time) :
    (db.recorded domain payload now).trail domain.id = db.trail domain.id ++
      [⟨domain.id, domain.applicationId, payload, db.stamp domain.id now⟩] := by
  simp [Database.trail, Database.recorded]

namespace Recordings

variable {domainId : Uuid} {db : Database}

/-- The stamps of a history increase. -/
theorem ordered (recordings : Recordings domainId db) :
    (db.trail domainId).Pairwise fun first second => first.createdAt < second.createdAt := by
  induction recordings with
  | none empty =>
      rw [empty]
      exact List.Pairwise.nil
  | @recorded db after earlier domain here payload now ran ih =>
      subst here
      rw [recordEvent_run] at ran
      cases ran
      rw [Database.trail_recorded, List.pairwise_append]
      refine ⟨ih, List.pairwise_singleton _ _, ?_⟩
      intro first member second last
      rw [List.mem_singleton.mp last]
      exact db.lt_stamp now member
  | elsewhere earlier same ih =>
      rw [same]
      exact ih

theorem orderedEvents (recordings : Recordings domainId db) :
    db.orderedEvents domainId = db.trail domainId := by
  refine List.mergeSort_of_pairwise ?_
  exact recordings.ordered.imp fun earlier => decide_eq_true earlier.le

end Recordings

/-- The most recent events, at most 200, in strictly decreasing order of their stamps. -/
def NewestFirst (history shown : List DomainEvent) : Prop :=
  shown = history.reverse.take maxPageSize ∧
    shown.Pairwise fun first second => second.createdAt < first.createdAt

theorem newestFirst_iff {history : List DomainEvent}
    (ordered : history.Pairwise fun first second => first.createdAt < second.createdAt) :
    NewestFirst history (history.take maxPageSize).reverse ↔ history.length ≤ maxPageSize := by
  constructor
  · rintro ⟨same, -⟩
    by_contra long
    rw [not_le] at long
    -- The oldest event of the history is shown, but it is not among the latest.
    rw [List.take_reverse, List.reverse_inj] at same
    cases history with
    | nil => simp at long
    | cons oldest later =>
        have shown : oldest ∈ (oldest :: later).take maxPageSize := by simp [maxPageSize]
        obtain ⟨skipped, count⟩ : ∃ skipped, (oldest :: later).length - maxPageSize = skipped + 1 :=
          ⟨_, (Nat.succ_pred_eq_of_pos (Nat.sub_pos_of_lt long)).symm⟩
        rw [same, count, List.drop_succ_cons] at shown
        exact lt_irrefl _ ((List.pairwise_cons.mp ordered).1 oldest (List.mem_of_mem_drop shown))
  · intro short
    rw [NewestFirst, List.take_of_length_le short, List.take_of_length_le (by simpa using short)]
    exact ⟨rfl, List.pairwise_reverse.mpr ordered⟩

/-- What the page shows. -/
theorem domainPageEvents_run {db : Database} {application : Application} {domain : Domain}
    (stored : db.domain? domain.id = some domain)
    (owner : domain.applicationId = application.id) (recordings : Recordings domain.id db) :
    (domainPageEvents application domain.id).run db =
      (.ok ((db.trail domain.id).take maxPageSize).reverse, db) := by
  have listed : (listEvents application domain.id 200).run db =
      (.ok ((db.trail domain.id).take maxPageSize), db) := by
    rw [listEvents, Program.run_bind, getDomain_run stored owner rfl]
    dsimp only
    rw [Program.run_read, recordings.orderedEvents]
    rfl
  rw [domainPageEvents, Program.run_bind, listed]
  rfl

/-- The page shows the latest history newest first exactly if it has at most 200
events. -/
theorem portal_history_iff {db : Database} {application : Application} {domain : Domain}
    (stored : db.domain? domain.id = some domain)
    (owner : domain.applicationId = application.id) (recordings : Recordings domain.id db) :
    ∃ shown, (domainPageEvents application domain.id).run db = (.ok shown, db) ∧
      (NewestFirst (db.trail domain.id) shown ↔ (db.trail domain.id).length ≤ maxPageSize) :=
  ⟨_, domainPageEvents_run stored owner recordings, newestFirst_iff recordings.ordered⟩

/-! ## Histories of one domain -/

section Sample

def recheckedDomain : Domain where
  id := 5
  applicationId := sampleApplication.id
  hostname := "forms.example.com"
  reference := "workspace"
  createdAt := 0
  updatedAt := 0

/-- The checks of the domain were asked for again and again. -/
def recheckedHistory : Nat → Database
  | 0 => { applications := [sampleApplication], domains := [recheckedDomain] }
  | count + 1 => (recheckedHistory count).recorded recheckedDomain (.recheckRequested "api") count

theorem recheckedHistory_stored (count : Nat) :
    (recheckedHistory count).domain? recheckedDomain.id = some recheckedDomain := by
  induction count with
  | zero => rfl
  | succ count ih => exact ih

theorem recheckedHistory_recordings (count : Nat) :
    Recordings recheckedDomain.id (recheckedHistory count) := by
  induction count with
  | zero => exact .none rfl
  | succ count ih => exact .recorded ih rfl _ _ (recordEvent_run _ _ _ _)

theorem recheckedHistory_length (count : Nat) :
    ((recheckedHistory count).trail recheckedDomain.id).length = count := by
  induction count with
  | zero => rfl
  | succ count ih =>
      rw [recheckedHistory, Database.trail_recorded, List.length_append, ih, List.length_singleton]

theorem portal_history_three :
    ∃ shown, (domainPageEvents sampleApplication recheckedDomain.id).run (recheckedHistory 3) =
        (.ok shown, recheckedHistory 3) ∧
      NewestFirst ((recheckedHistory 3).trail recheckedDomain.id) shown := by
  obtain ⟨shown, ran, newest⟩ := portal_history_iff (recheckedHistory_stored 3)
    (show recheckedDomain.applicationId = sampleApplication.id from rfl)
    (recheckedHistory_recordings 3)
  exact ⟨shown, ran, newest.mpr (by rw [recheckedHistory_length]; decide)⟩

theorem recheckedHistory_cut {count : Nat} (long : maxPageSize < count) :
    ¬ ∃ shown, (domainPageEvents sampleApplication recheckedDomain.id).run
          (recheckedHistory count) = (.ok shown, recheckedHistory count) ∧
        NewestFirst ((recheckedHistory count).trail recheckedDomain.id) shown := by
  have recordings := recheckedHistory_recordings count
  rintro ⟨shown, ran, newest⟩
  rw [domainPageEvents_run (recheckedHistory_stored count) rfl recordings] at ran
  cases ran
  have short := (newestFirst_iff recordings.ordered).mp newest
  rw [recheckedHistory_length] at short
  exact absurd short (not_le.mpr long)

/-- With one event more than the page holds, the latest one is not shown. -/
theorem portal_history_cut :
    ¬ ∃ shown, (domainPageEvents sampleApplication recheckedDomain.id).run
          (recheckedHistory 201) = (.ok shown, recheckedHistory 201) ∧
        NewestFirst ((recheckedHistory 201).trail recheckedDomain.id) shown :=
  recheckedHistory_cut (by decide)

end Sample

end CustomDomain
