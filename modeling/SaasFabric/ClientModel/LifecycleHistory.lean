import SaasFabric.ClientModel.Lifecycle

/-!
# The lifecycle a client's operators write

Whatever an operator asks for, a call is refused or taken.  Where the clock does not go back
between the calls that are taken, what they leave is accepted when the document is read again,
and it says which tombstones were written and which of them were reversed.
-/

namespace SaasFabric
namespace ClientModel

open Library

/-- A call of one of the three transitions. -/
inductive LifecycleCall where
  | tombstone (at_ : U64) (by_ reason : String)
  | confirmDeletion (client confirming : ClientId) (at_ : U64) (by_ : String)
  | restore (at_ : U64) (by_ reason : String)
deriving DecidableEq

namespace LifecycleCall

/-- The time a call is stamped with. -/
def time : LifecycleCall → U64
  | tombstone at_ _ _ => at_
  | confirmDeletion _ _ at_ _ => at_
  | restore at_ _ _ => at_

/-- Whether a call takes the client out of service. -/
def Retires : LifecycleCall → Prop
  | tombstone .. => True
  | confirmDeletion .. => True
  | restore .. => False

def Confirms : LifecycleCall → Prop
  | confirmDeletion .. => True
  | _ => False

/-- The tombstone a call writes. -/
def entry : LifecycleCall → Option Tombstone
  | tombstone at_ by_ reason => some ⟨at_, by_, Text.trim reason⟩
  | _ => none

/-- What a call makes of a record. -/
def apply (record : LifecycleRecord) : LifecycleCall → Except LifecycleRefusal LifecycleRecord
  | tombstone at_ by_ reason => record.toTombstoned at_ by_ reason
  | confirmDeletion client confirming at_ by_ => record.confirmDeletion client confirming at_ by_
  | restore at_ by_ reason => record.restore at_ by_ reason

end LifecycleCall

/-- `LifecycleRecord::is_retired`. -/
def LifecycleRecord.isRetired (record : LifecycleRecord) : Bool := record.tombstone.isSome

/-- `LifecycleRecord::default`. -/
def LifecycleRecord.empty : LifecycleRecord := ⟨none, none, [], none⟩

/-- A record, and the calls that were taken, in order. -/
structure LifecycleHistory where
  record : LifecycleRecord
  accepted : List LifecycleCall

namespace LifecycleHistory

/-- One call: a refused one keeps the record. -/
def call (history : LifecycleHistory) (made : LifecycleCall) : LifecycleHistory :=
  match made.apply history.record with
  | .ok record => ⟨record, history.accepted ++ [made]⟩
  | .error _ => history

/-- The calls, one after another, from the empty record. -/
def run (calls : List LifecycleCall) : LifecycleHistory := calls.foldl call ⟨.empty, []⟩

/-- The times of the calls that were taken do not decrease. -/
def Ordered (history : LifecycleHistory) : Prop :=
  history.accepted.Pairwise fun earlier later => earlier.time ≤ later.time

instance (history : LifecycleHistory) : Decidable history.Ordered :=
  inferInstanceAs (Decidable (List.Pairwise _ _))

@[simp] theorem run_concat (calls : List LifecycleCall) (made : LifecycleCall) :
    run (calls ++ [made]) = (run calls).call made := List.foldl_concat ..

/-- An invariant of a run: it holds of the empty record, and every call that is taken keeps it. -/
theorem run_induction {P : LifecycleHistory → Prop} (hstart : P ⟨.empty, []⟩)
    (hstep : ∀ history made record, P history → made.apply history.record = .ok record →
      P ⟨record, history.accepted ++ [made]⟩) (calls : List LifecycleCall) : P (run calls) := by
  induction calls using List.reverseRecOn with
  | nil => exact hstart
  | append_singleton calls made ih =>
      rw [run_concat]
      unfold call
      split
      · rename_i record hmade
        exact hstep _ _ _ ih hmade
      · exact ih

/-! ## What a record says -/

/-- A record says which tombstones were written, which call was the last, and whether deletion was
confirmed. -/
structure Says (history : LifecycleHistory) : Prop where
  tombstones : history.record.restorations.map Restoration.tombstone ++
    history.record.tombstone.toList = history.accepted.filterMap LifecycleCall.entry
  retired : history.record.isRetired = true ↔
    ∃ last, history.accepted.getLast? = some last ∧ last.Retires
  confirmed : history.record.deletionConfirmed = none ↔
    ∀ made ∈ history.accepted, ¬made.Confirms

theorem Says.taken {history : LifecycleHistory} {made : LifecycleCall} {record : LifecycleRecord}
    (h : history.Says) (hmade : made.apply history.record = .ok record) :
    Says ⟨record, history.accepted ++ [made]⟩ := by
  have htombstones := h.tombstones
  cases made with
  | tombstone at_ by_ reason =>
      obtain ⟨hdeletion, htombstone, recorded, hreason, rfl⟩ :=
        LifecycleRecord.toTombstoned_eq_ok.mp hmade
      rw [htombstone, Option.toList_none, List.append_nil] at htombstones
      refine ⟨?_, ?_, ?_⟩
      · rw [List.filterMap_append, ← htombstones, (checkReason_recorded hreason).1]
        rfl
      · simp [LifecycleRecord.isRetired, LifecycleCall.Retires]
      · have hconfirmed := h.confirmed.mp hdeletion
        simpa [LifecycleCall.Confirms, or_imp, forall_and] using hconfirmed
  | confirmDeletion client confirming at_ by_ =>
      obtain ⟨-, hdeletion, ⟨tombstone, htombstone⟩, rfl⟩ :=
        LifecycleRecord.confirmDeletion_eq_ok.mp hmade
      refine ⟨?_, ?_, ?_⟩
      · rw [List.filterMap_append, ← htombstones]
        exact (List.append_nil _).symm
      · simp [LifecycleRecord.isRetired, LifecycleCall.Retires, htombstone]
      · simp [LifecycleCall.Confirms]
  | restore at_ by_ reason =>
      obtain ⟨hdeletion, tombstone, htombstone, recorded, hreason, rfl⟩ :=
        LifecycleRecord.restore_eq_ok.mp hmade
      rw [htombstone] at htombstones
      refine ⟨?_, ?_, ?_⟩
      · -- What was the current tombstone is the last one reversed.
        rw [List.filterMap_append, ← htombstones, List.map_append]
        simp [LifecycleCall.entry]
      · simp [LifecycleRecord.isRetired, LifecycleCall.Retires]
      · have hconfirmed := h.confirmed.mp hdeletion
        simpa [LifecycleCall.Confirms, or_imp, forall_and] using hconfirmed

theorem says_run (calls : List LifecycleCall) : (run calls).Says :=
  run_induction ⟨rfl, by simp [LifecycleRecord.isRetired, LifecycleRecord.empty],
    by simp [LifecycleRecord.empty]⟩ (fun _ _ _ h hmade => h.taken hmade) calls

/-- Nothing is taken once deletion is confirmed. -/
theorem refused_of_confirmed {record : LifecycleRecord} (h : record.deletionConfirmed ≠ none)
    (made : LifecycleCall) : ∃ refusal, made.apply record = .error refusal := by
  cases hmade : made.apply record with
  | error refusal => exact ⟨refusal, rfl⟩
  | ok next =>
      exfalso
      cases made with
      | tombstone => exact h (LifecycleRecord.toTombstoned_eq_ok.mp hmade).1
      | confirmDeletion => exact h (LifecycleRecord.confirmDeletion_eq_ok.mp hmade).2.1
      | restore => exact h (LifecycleRecord.restore_eq_ok.mp hmade).1

/-- The instance stays, and what was reversed stays reversed. -/
theorem kept_of_apply {record next : LifecycleRecord} {made : LifecycleCall}
    (hmade : made.apply record = .ok next) :
    next.instance_ = record.instance_ ∧ record.restorations <+: next.restorations := by
  cases made with
  | tombstone =>
      obtain ⟨-, -, -, -, rfl⟩ := LifecycleRecord.toTombstoned_eq_ok.mp hmade
      exact ⟨rfl, List.prefix_refl _⟩
  | confirmDeletion =>
      obtain ⟨-, -, -, rfl⟩ := LifecycleRecord.confirmDeletion_eq_ok.mp hmade
      exact ⟨rfl, List.prefix_refl _⟩
  | restore =>
      obtain ⟨-, -, -, -, -, rfl⟩ := LifecycleRecord.restore_eq_ok.mp hmade
      exact ⟨rfl, List.prefix_append _ _⟩

theorem kept_call (history : LifecycleHistory) (made : LifecycleCall) :
    (history.call made).record.instance_ = history.record.instance_ ∧
      history.record.restorations <+: (history.call made).record.restorations := by
  unfold call
  split
  · exact kept_of_apply ‹_›
  · exact ⟨rfl, List.prefix_refl _⟩

/-! ## What is read again -/

/-- The time of the last call that was taken. -/
def lastTime (history : LifecycleHistory) : U64 :=
  (history.accepted.getLast?.map LifecycleCall.time).getD 0

/-- What a record has to be to be read at a time: its entries in order, none of them later. -/
structure Readable (record : LifecycleRecord) (now : U64) : Prop where
  restorations : ∃ floor, LifecycleRecord.checkRestorations 0 record.restorations = .ok floor ∧
    floor ≤ now ∧ ∀ tombstone, record.tombstone = some tombstone → floor ≤ tombstone.at_
  tombstone : ∀ tombstone, record.tombstone = some tombstone →
    tombstone.at_ ≤ now ∧ checkReason .tombstone tombstone.reason = .ok tombstone.reason
  deletion : ∀ deletion, record.deletionConfirmed = some deletion →
    ∃ tombstone, record.tombstone = some tombstone ∧ tombstone.at_ ≤ deletion.at_

theorem Readable.check {record : LifecycleRecord} {now : U64} (h : Readable record now) :
    record.check = .ok () := by
  obtain ⟨floor, hrestorations, -, hfloor⟩ := h.restorations
  have hdeletion : record.checkDeletion = .ok () := by
    unfold LifecycleRecord.checkDeletion
    cases hconfirmed : record.deletionConfirmed with
    | none => cases record.tombstone <;> rfl
    | some deletion =>
        obtain ⟨tombstone, htombstone, hle⟩ := h.deletion deletion hconfirmed
        rw [htombstone]
        exact if_neg (not_lt.mpr hle)
  unfold LifecycleRecord.check
  rw [hdeletion, hrestorations]
  cases htombstone : record.tombstone with
  | none => rfl
  | some tombstone =>
      have hreason := (h.tombstone tombstone htombstone).2
      simp only [hreason, Except.mapError, ok_bind, if_neg (not_lt.mpr (hfloor tombstone htombstone))]

theorem checkRestorations_concat {floor : U64} {restorations : List Restoration}
    {last : Restoration} :
    LifecycleRecord.checkRestorations floor (restorations ++ [last]) =
      LifecycleRecord.checkRestorations floor restorations >>= fun later =>
        LifecycleRecord.checkRestorations later [last] := by
  induction restorations generalizing floor with
  | nil => rfl
  | cons restoration rest ih =>
      simp only [List.cons_append, LifecycleRecord.checkRestorations, bind_assoc]
      refine bind_congr fun _ => bind_congr fun _ => ?_
      split
      · rfl
      · exact ih

/-- A call that is taken at a later time leaves what can be read. -/
theorem Readable.taken {record next : LifecycleRecord} {made : LifecycleCall} {now : U64}
    (h : Readable record now) (hmade : made.apply record = .ok next) (hnow : now ≤ made.time) :
    Readable next made.time := by
  obtain ⟨floor, hrestorations, hfloor, hafter⟩ := h.restorations
  cases made with
  | tombstone at_ by_ reason =>
      obtain ⟨hdeletion, htombstone, recorded, hreason, rfl⟩ :=
        LifecycleRecord.toTombstoned_eq_ok.mp hmade
      refine ⟨⟨floor, hrestorations, hfloor.trans hnow, ?_⟩, ?_, nofun⟩
      · rintro _ ⟨rfl⟩
        exact hfloor.trans hnow
      · rintro _ ⟨rfl⟩
        exact ⟨le_rfl, (checkReason_recorded hreason).2⟩
  | confirmDeletion client confirming at_ by_ =>
      obtain ⟨-, hdeletion, ⟨tombstone, htombstone⟩, rfl⟩ :=
        LifecycleRecord.confirmDeletion_eq_ok.mp hmade
      have hwritten := h.tombstone tombstone htombstone
      refine ⟨⟨floor, hrestorations, hfloor.trans hnow, hafter⟩, fun other hother => ?_, ?_⟩
      · exact ⟨(h.tombstone other hother).1.trans hnow, (h.tombstone other hother).2⟩
      · rintro _ ⟨rfl⟩
        exact ⟨tombstone, htombstone, hwritten.1.trans hnow⟩
  | restore at_ by_ reason =>
      obtain ⟨hdeletion, tombstone, htombstone, recorded, hreason, rfl⟩ :=
        LifecycleRecord.restore_eq_ok.mp hmade
      obtain ⟨hwritten, hwhy⟩ := h.tombstone tombstone htombstone
      have hle : tombstone.at_ ≤ at_ := hwritten.trans hnow
      refine ⟨⟨at_, ?_, le_rfl, nofun⟩, nofun, nofun⟩
      have hordered : ¬(tombstone.at_ < floor ∨ at_ < tombstone.at_) := by
        rw [not_or, not_lt, not_lt]
        exact ⟨hafter tombstone htombstone, hle⟩
      show LifecycleRecord.checkRestorations 0 (record.restorations ++ [_]) = .ok at_
      rw [checkRestorations_concat, hrestorations]
      simp only [ok_bind, LifecycleRecord.checkRestorations, hwhy,
        (checkReason_recorded hreason).2, Except.mapError, if_neg hordered]

theorem readable_run (calls : List LifecycleCall) :
    (run calls).Ordered → Readable (run calls).record (run calls).lastTime := by
  refine run_induction (P := fun history => history.Ordered →
    Readable history.record history.lastTime) ?_ ?_ calls
  · exact fun _ => ⟨⟨0, rfl, le_rfl, nofun⟩, nofun, nofun⟩
  · intro history made record ih hmade hordered
    obtain ⟨hearlier, -, hlast⟩ := List.pairwise_append.mp hordered
    have htime : lastTime ⟨record, history.accepted ++ [made]⟩ = made.time := by
      simp [lastTime]
    have hnow : history.lastTime ≤ made.time := by
      unfold lastTime
      cases hgetLast : history.accepted.getLast? with
      | none => exact Fin.zero_le _
      | some last => exact hlast last (List.mem_of_getLast? hgetLast) made List.mem_cons_self
    rw [htime]
    exact (ih hearlier).taken hmade hnow

/-! ## Runs -/

/-- What is taken stays taken, and what was reversed stays reversed. -/
theorem grows_run (calls more : List LifecycleCall) :
    (run calls).accepted <+: (run (calls ++ more)).accepted ∧
      (run calls).record.restorations <+: (run (calls ++ more)).record.restorations ∧
        (run (calls ++ more)).record.instance_ = (run calls).record.instance_ := by
  induction more using List.reverseRecOn with
  | nil => simp
  | append_singleton more made ih =>
      obtain ⟨haccepted, hrestorations, hinstance⟩ := ih
      obtain ⟨hsame, hstarts⟩ := kept_call (run (calls ++ more)) made
      rw [← List.append_assoc, run_concat]
      refine ⟨haccepted.trans ?_, hrestorations.trans hstarts, hsame.trans hinstance⟩
      unfold call
      split
      · exact List.prefix_append _ _
      · exact List.prefix_refl _

/-- A client's recorded lifecycle can always be read again and forgets nothing. -/
theorem lifecycle_is_kept (calls : List LifecycleCall) :
    ((run calls).Ordered → ∀ count, (run (calls.take count)).record.check = .ok ()) ∧
      (∀ more, (run calls).record.restorations <+: (run (calls ++ more)).record.restorations) ∧
      (run calls).record.restorations.map Restoration.tombstone ++
          (run calls).record.tombstone.toList =
        (run calls).accepted.filterMap LifecycleCall.entry ∧
      (run calls).record.instance_ = LifecycleRecord.empty.instance_ ∧
      ((∃ made ∈ (run calls).accepted, made.Confirms) → ∀ made,
        ∃ refusal, LifecycleCall.apply (run calls).record made = .error refusal) ∧
      ((run calls).record.isRetired = true ↔
        ∃ last, (run calls).accepted.getLast? = some last ∧ last.Retires) := by
  have hsays := says_run calls
  refine ⟨fun hordered count => ?_, fun more => (grows_run calls more).2.1, hsays.tombstones,
    (grows_run [] calls).2.2, fun hconfirmed made => ?_, hsays.retired⟩
  · have hstarts := (grows_run (calls.take count) (calls.drop count)).1
    rw [List.take_append_drop] at hstarts
    exact (readable_run _ (hordered.sublist hstarts.sublist)).check
  · apply refused_of_confirmed
    intro hnone
    obtain ⟨confirmation, hmem, hconfirms⟩ := hconfirmed
    exact hsays.confirmed.mp hnone confirmation hmem hconfirms

/-- A client that is tombstoned, restored and tombstoned again. -/
def againRetired : List LifecycleCall :=
  [.tombstone 1 "o" " moved away ", .restore 2 "o" "renewed", .tombstone 2 "p" "closed",
    .tombstone 3 "p" "closed again"]

theorem againRetired_is_kept :
    (run againRetired).record.check = .ok () ∧ (run againRetired).record.isRetired = true ∧
      (run againRetired).record.restorations.map Restoration.tombstone =
        [⟨1, "o", "moved away"⟩] :=
  ⟨(lifecycle_is_kept againRetired).1 (by decide +kernel) 4,
    (lifecycle_is_kept againRetired).2.2.2.2.2.mpr
      ⟨.tombstone 2 "p" "closed", by decide +kernel, trivial⟩, by decide +kernel⟩

end LifecycleHistory
end ClientModel
end SaasFabric
