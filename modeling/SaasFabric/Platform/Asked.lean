import SaasFabric.Library.Program
import SaasFabric.Platform.Described

/-!
# The images asked one after another

The rule `found` answers by: every image by digest, then every image by tag, each read waited for
before the next is made, and the first failure ending it.  The images asked at once give what
this rule gives, at the poll that brings in the last read this rule would have made.
-/

namespace SaasFabric
namespace Platform

open Library (Program collect)
open Library.Ends (runFrom_bind)

/-! ## The rule -/

/-- What ends the rule early. -/
inductive Stop where
  | error (error : RegistryError)
  | decided (evaluation : Evaluation)

/-- What `found` returns for it. -/
def Stop.found : Stop → Found
  | .error failure => .error failure
  | .decided evaluation => .ok (.error evaluation)

/-- One read of the rule: what to ask, the digest that passes, and what another answer decides. -/
structure Asking where
  repository : String
  reference : String
  digest : String
  otherwise : Evaluation

def Asking.stop (asking : Asking) : ReadAnswer → Stop
  | .error failure => .error failure
  | .ok _ => .decided asking.otherwise

/-- Asks, waits for the answer, and holds it to the digest.  The state counts the reads made. -/
def Registry.ask (registry : Registry) (asking : Asking) : Program ℕ Stop Resolved := do
  let call ← get
  set (call + 1)
  match (registry.resolve call asking.repository asking.reference).value with
  | .ok (some resolved) =>
    if resolved.digest = asking.digest then return resolved else throw (.decided asking.otherwise)
  | .ok none => throw (.decided asking.otherwise)
  | .error error => throw (.error error)

/-- The image at its digest. -/
def byDigest (other : Other) : Asking where
  repository := other.2.repository
  reference := other.2.digest
  digest := other.2.digest
  otherwise := .invalid (.missingImage other.1)

/-- The image at the version's tag. -/
def byTag (version : String) (other : Other) : Asking where
  repository := other.2.repository
  reference := version
  digest := other.2.digest
  otherwise := .incoherent

/-- Passes 1 and 2, one read after another. -/
def asked (registry : Registry) (others : List Other) (version : String) :
    Program ℕ Stop (BTreeMap String Resolved) := do
  let resolved ← (others.map byDigest).mapM registry.ask
  let _ ← (others.map (byTag version)).mapM registry.ask
  return collect ((others.map Prod.fst).zip resolved)

/-- What the rule finds. -/
def Found.ofRule : Except Stop (BTreeMap String Resolved) → Found
  | .ok found => .ok (.ok found)
  | .error stop => stop.found

/-- What the rule finds, asked from the first call on. -/
def foundInTurn (registry : Registry) (others : List Other) (version : String) : Found :=
  .ofRule ((asked registry others version).runFrom 0).1

/-- How many reads the rule makes. -/
def readsMade (registry : Registry) (others : List Other) (version : String) : ℕ :=
  ((asked registry others version).runFrom 0).2

/-- Every read the rule makes has answered within this many polls. -/
def InBy (registry : Registry) (others : List Other) (version : String) (polls : ℕ) : Prop :=
  ∀ read ∈ (readsOf registry others version).take (readsMade registry others version),
    ∃ now < polls, read.ready now

/-! ## One list of reads -/

section Asking

variable {registry : Registry} {others : List Other} {version : String}

/-- The reads of a list of questions, the calls numbered from one on. -/
def readsFrom (registry : Registry) : ℕ → List Asking → List (Read ReadAnswer)
  | _, [] => []
  | call, asking :: askings =>
    registry.resolve call asking.repository asking.reference ::
      readsFrom registry (call + 1) askings

theorem length_readsFrom (registry : Registry) (call : ℕ) (askings : List Asking) :
    (readsFrom registry call askings).length = askings.length := by
  induction askings generalizing call with
  | nil => rfl
  | cons asking askings ih =>
    rw [readsFrom, List.length_cons, List.length_cons, ih]

theorem readsFrom_append (registry : Registry) (call : ℕ) (first second : List Asking) :
    readsFrom registry call (first ++ second) =
      readsFrom registry call first ++ readsFrom registry (call + first.length) second := by
  induction first generalizing call with
  | nil => rfl
  | cons asking first ih =>
    rw [List.cons_append, readsFrom, readsFrom, ih, List.length_cons, List.cons_append,
      Nat.add_right_comm, Nat.add_assoc]

theorem readsFrom_map (registry : Registry) (call : ℕ) (question : Other → Asking) :
    readsFrom registry call (others.map question) =
      (others.zipIdx call).map fun (other, call) =>
        registry.resolve call (question other).repository (question other).reference := by
  induction others generalizing call with
  | nil => rfl
  | cons other others ih =>
    rw [List.map_cons, readsFrom, ih, List.zipIdx_cons, List.map_cons]

/-- Every question of the rule, in its order. -/
def askings (others : List Other) (version : String) : List Asking :=
  others.map byDigest ++ others.map (byTag version)

theorem readsOf_eq : readsOf registry others version =
    readsFrom registry 0 (askings others version) := by
  rw [askings, readsFrom_append, readsFrom_map, readsFrom_map, List.length_map, Nat.zero_add]
  rfl

theorem digests_askings : (askings others version).map Asking.digest =
    digestsOf others ++ digestsOf others := by
  simp [askings, digestsOf, byDigest, byTag, Function.comp_def]

end Asking

/-! ## Where the passes stand -/

/-- The loop of `standing` over the digests the reads are held to. -/
def standingOver : ℕ → List String → List (Option ReadAnswer) → Standing
  | _, _, [] => .passed
  | _, [], _ :: _ => .passed
  | _, _ :: _, none :: _ => .waiting
  | index, expected :: digests, some answer :: answers =>
    if resolvesTo answer expected then standingOver (index + 1) digests answers
    else .failed index

theorem standingFrom_eq {digests : List String} {answers : List (Option ReadAnswer)} {index : ℕ}
    (h : index + answers.length = digests.length + digests.length) :
    standingFrom digests index answers =
      standingOver index ((digests ++ digests).drop index) answers := by
  induction answers generalizing index with
  | nil => simp [standingFrom, standingOver]
  | cons answer answers ih =>
    rw [List.length_cons] at h
    have hlt : index < (digests ++ digests).length := by
      rw [List.length_append]
      omega
    -- The cycle's place is the place in the digests twice over.
    have hcycle : digests[index % digests.length]? = some (digests ++ digests)[index] := by
      rw [← List.getElem?_eq_getElem hlt]
      by_cases hfirst : index < digests.length
      · rw [Nat.mod_eq_of_lt hfirst, List.getElem?_append_left hfirst]
      · have hmod : index % digests.length = index - digests.length := by
          rw [Nat.mod_eq_sub_mod (by omega), Nat.mod_eq_of_lt (by omega)]
        rw [hmod, List.getElem?_append_right (by omega)]
    rw [List.drop_eq_getElem_cons hlt, standingFrom, hcycle]
    cases answer with
    | none => rfl
    | some answer =>
      show (if _ then _ else _) = standingOver index (_ :: _) (some answer :: answers)
      rw [standingOver, ih (by omega)]

theorem standing_eq {digests : List String} {answers : List (Option ReadAnswer)}
    (h : answers.length = digests.length + digests.length) :
    standing digests answers = standingOver 0 (digests ++ digests) answers := by
  have hzero : 0 + answers.length = digests.length + digests.length := by rw [Nat.zero_add, h]
  have hfrom := standingFrom_eq hzero
  rwa [List.drop_zero] at hfrom

/-! ## The reads the rule makes -/

/-- How many reads are made before one fails, the failed one counted. -/
def madeOf : List String → List (Read ReadAnswer) → ℕ
  | expected :: digests, read :: reads =>
    if resolvesTo read.value expected then madeOf digests reads + 1 else 1
  | _, _ => 0

/-- The answers so far decide exactly when every read up to the first failure is in. -/
theorem standingOver_ne_waiting {digests : List String} {reads : List (Read ReadAnswer)}
    {polls : ℕ} (index : ℕ) :
    standingOver index digests (answered reads polls) ≠ .waiting ↔
      ∀ read ∈ reads.take (madeOf digests reads), (read.within polls).isSome := by
  induction reads generalizing index digests with
  | nil => simp [answered, standingOver]
  | cons read reads ih =>
    cases digests with
    | nil => simp [answered, standingOver, madeOf]
    | cons expected digests =>
      rw [answered, List.map_cons, ← answered, madeOf]
      cases hin : read.within polls with
      | none =>
        have hfirst : ∀ n, read ∈ (read :: reads).take (n + 1) := fun n => by simp
        simp only [standingOver, ne_eq, not_true_eq_false, false_iff]
        intro hall
        split at hall
        · exact absurd (hall read (hfirst _)) (by simp [hin])
        · exact absurd (hall read (hfirst 0)) (by simp [hin])
      | some answer =>
        have hvalue : answer = read.value := by
          have h := read.within_eq_some (by rw [hin]; rfl)
          rw [hin] at h
          exact Option.some_inj.mp h
        subst hvalue
        rw [standingOver]
        split
        · rw [ih (index + 1)]
          simp [hin]
        · simp [hin]

section Running

variable {registry : Registry} {others : List Other} {version : String}

theorem runFrom_ask (registry : Registry) (asking : Asking) (call : ℕ) :
    (registry.ask asking).runFrom call =
      (match (registry.resolve call asking.repository asking.reference).value with
        | .ok (some resolved) =>
          if resolved.digest = asking.digest then .ok resolved
          else .error (.decided asking.otherwise)
        | .ok none => .error (.decided asking.otherwise)
        | .error error => .error (.error error), call + 1) := by
  have hask : (registry.ask asking).runFrom call = ((match
      (registry.resolve call asking.repository asking.reference).value with
      | .ok (some resolved) =>
        if resolved.digest = asking.digest then return resolved
        else throw (.decided asking.otherwise)
      | .ok none => throw (.decided asking.otherwise)
      | .error error => throw (.error error) : Program ℕ Stop Resolved)).runFrom (call + 1) := rfl
  rw [hask]
  cases (registry.resolve call asking.repository asking.reference).value with
  | error error => rfl
  | ok found =>
    cases found with
    | none => rfl
    | some resolved =>
      show Program.runFrom (if _ then _ else _) _ = (if _ then _ else _, _)
      split <;> rfl

/-- A read that passes gives what was resolved. -/
theorem runFrom_ask_of_resolvesTo {asking : Asking} {call : ℕ}
    (h : resolvesTo (registry.resolve call asking.repository asking.reference).value
      asking.digest) :
    ∃ resolved,
      (registry.resolve call asking.repository asking.reference).value = .ok (some resolved) ∧
      (registry.ask asking).runFrom call = (.ok resolved, call + 1) := by
  rw [runFrom_ask]
  generalize (registry.resolve call asking.repository asking.reference).value = answer at h
  unfold resolvesTo at h
  split at h
  · next resolved => exact ⟨resolved, rfl, by simpa using h⟩
  · exact absurd h Bool.false_ne_true
  · exact absurd h Bool.false_ne_true

/-- A read that does not pass ends the rule. -/
theorem runFrom_ask_of_not_resolvesTo {asking : Asking} {call : ℕ}
    (h : ¬ resolvesTo (registry.resolve call asking.repository asking.reference).value
      asking.digest) :
    (registry.ask asking).runFrom call =
      (.error (asking.stop (registry.resolve call asking.repository asking.reference).value),
        call + 1) := by
  rw [runFrom_ask]
  generalize (registry.resolve call asking.repository asking.reference).value = answer at h
  unfold resolvesTo at h
  split at h
  · next resolved => simpa [Asking.stop] using h
  · rfl
  · rfl

theorem runFrom_mapM_of_ok {asking : Asking} {call next : ℕ} {resolved : Resolved}
    (h : (registry.ask asking).runFrom call = (.ok resolved, next)) (askings : List Asking) :
    ((asking :: askings).mapM registry.ask).runFrom call =
      (((askings.mapM registry.ask).runFrom next).1.map (resolved :: ·),
        ((askings.mapM registry.ask).runFrom next).2) := by
  rw [List.mapM_cons, runFrom_bind, h]
  show Program.runFrom _ next = _
  rw [runFrom_bind]
  rcases (askings.mapM registry.ask).runFrom next with ⟨_ | rest, last⟩ <;> rfl

theorem runFrom_mapM_of_error {asking : Asking} {call next : ℕ} {stop : Stop}
    (h : (registry.ask asking).runFrom call = (.error stop, next)) (askings : List Asking) :
    ((asking :: askings).mapM registry.ask).runFrom call = (.error stop, next) := by
  rw [List.mapM_cons, runFrom_bind, h]

theorem runFrom_mapM_count (call : ℕ) (askings : List Asking) :
    ((askings.mapM registry.ask).runFrom call).2 =
      call + madeOf (askings.map Asking.digest) (readsFrom registry call askings) := by
  induction askings generalizing call with
  | nil => rfl
  | cons asking askings ih =>
    rw [List.map_cons, readsFrom, madeOf]
    split_ifs with h
    · obtain ⟨resolved, -, hrun⟩ := runFrom_ask_of_resolvesTo h
      rw [runFrom_mapM_of_ok hrun, ih]
      omega
    · rw [runFrom_mapM_of_error (runFrom_ask_of_not_resolvesTo h)]

/-- What the answers in so far decide is what the rule's reads end in. -/
theorem runFrom_mapM (registry : Registry) (call polls index : ℕ) (askings : List Asking) :
    match standingOver index (askings.map Asking.digest)
        (answered (readsFrom registry call askings) polls) with
    | .waiting => True
    | .failed at_ => ∃ place asking answer, at_ = index + place ∧
        (answered (readsFrom registry call askings) polls)[place]? = some (some answer) ∧
        askings[place]? = some asking ∧
        ((askings.mapM registry.ask).runFrom call).1 = .error (asking.stop answer)
    | .passed => ∃ resolved,
        answered (readsFrom registry call askings) polls =
          resolved.map (fun found => some (.ok (some found))) ∧
        ((askings.mapM registry.ask).runFrom call).1 = .ok resolved := by
  induction askings generalizing call index with
  | nil => exact ⟨[], rfl, rfl⟩
  | cons asking askings ih =>
    have hcons : answered (readsFrom registry call (asking :: askings)) polls =
        (registry.resolve call asking.repository asking.reference).within polls ::
          answered (readsFrom registry (call + 1) askings) polls := rfl
    rw [hcons, List.map_cons]
    cases hin : (registry.resolve call asking.repository asking.reference).within polls with
    | none => trivial
    | some answer =>
      have hvalue := Read.within_eq_some (by rw [hin]; rfl)
      rw [hin, Option.some_inj] at hvalue
      subst hvalue
      rw [standingOver]
      by_cases h : resolvesTo (registry.resolve call asking.repository asking.reference).value
          asking.digest
      · obtain ⟨resolved, hanswer, hrun⟩ := runFrom_ask_of_resolvesTo h
        have hrest := ih (call + 1) (index + 1)
        rw [if_pos h, runFrom_mapM_of_ok hrun]
        cases hstanding : standingOver (index + 1) (askings.map Asking.digest)
            (answered (readsFrom registry (call + 1) askings) polls) with
        | waiting => trivial
        | failed at_ =>
          rw [hstanding] at hrest
          obtain ⟨place, other, failure, hat, hanswered, hasked, hends⟩ := hrest
          exact ⟨place + 1, other, failure, by omega, hanswered, hasked, by rw [hends]; rfl⟩
        | passed =>
          rw [hstanding] at hrest
          obtain ⟨rest, hanswered, hends⟩ := hrest
          exact ⟨resolved :: rest, by rw [hanswered, hanswer]; rfl, by rw [hends]; rfl⟩
      · rw [if_neg h, runFrom_mapM_of_error (runFrom_ask_of_not_resolvesTo h)]
        exact ⟨0, asking, _, rfl, rfl, rfl, rfl⟩

theorem length_of_runFrom_mapM {call last : ℕ} {askings : List Asking}
    {resolved : List Resolved}
    (h : (askings.mapM registry.ask).runFrom call = (.ok resolved, last)) :
    resolved.length = askings.length := by
  induction askings generalizing call resolved last with
  | nil =>
    rw [← Except.ok.inj (congrArg Prod.fst h)]
    rfl
  | cons asking askings ih =>
    rcases hfirst : (registry.ask asking).runFrom call with ⟨stop | first, next⟩
    · rw [runFrom_mapM_of_error hfirst] at h
      exact absurd (congrArg Prod.fst h) nofun
    · rw [runFrom_mapM_of_ok hfirst] at h
      rcases hrest : (askings.mapM registry.ask).runFrom next with ⟨stop | rest, last⟩
      · rw [hrest] at h
        exact absurd (congrArg Prod.fst h) nofun
      · rw [hrest] at h
        rw [← Except.ok.inj (congrArg Prod.fst h), List.length_cons, List.length_cons, ih hrest]

/-- The rule is one list of questions. -/
theorem runFrom_asked (registry : Registry) (others : List Other) (version : String) :
    (asked registry others version).runFrom 0 =
      ((((askings others version).mapM registry.ask).runFrom 0).1.map fun resolved =>
          collect ((others.map Prod.fst).zip resolved),
        (((askings others version).mapM registry.ask).runFrom 0).2) := by
  rw [asked, askings, List.mapM_append, runFrom_bind, runFrom_bind]
  rcases hfirst : ((others.map byDigest).mapM registry.ask).runFrom 0 with ⟨stop | first, next⟩
  · rfl
  · show Program.runFrom _ next = (Except.map _ (Program.runFrom _ next).1,
      (Program.runFrom _ next).2)
    rw [runFrom_bind, runFrom_bind]
    rcases ((others.map (byTag version)).mapM registry.ask).runFrom next with ⟨stop | second, last⟩
    · rfl
    · have hlength : (others.map Prod.fst).length = first.length := by
        rw [length_of_runFrom_mapM hfirst, List.length_map, List.length_map]
      have hzip : (others.map Prod.fst).zip (first ++ second) =
          (others.map Prod.fst).zip first := by
        rw [← List.append_nil (others.map Prod.fst), List.zip_append hlength, List.append_nil,
          List.zip_nil_left, List.append_nil]
      show (Except.ok (collect ((others.map Prod.fst).zip first)), last) =
        (Except.ok (collect ((others.map Prod.fst).zip (first ++ second))), last)
      rw [hzip]

theorem readsMade_eq (registry : Registry) (others : List Other) (version : String) :
    readsMade registry others version =
      madeOf (digestsOf others ++ digestsOf others) (readsOf registry others version) := by
  rw [readsMade, runFrom_asked, runFrom_mapM_count, digests_askings, readsOf_eq, Nat.zero_add]

end Running

/-! ## The answers, and the rule -/

section Together

variable {registry : Registry} {others : List Other} {version : String} {polls : ℕ}

theorem standing_answered (registry : Registry) (others : List Other) (version : String)
    (polls : ℕ) :
    standing (digestsOf others) (answered (readsOf registry others version) polls) =
      standingOver 0 (digestsOf others ++ digestsOf others)
        (answered (readsOf registry others version) polls) := by
  apply standing_eq
  rw [length_answered, readsOf_eq, length_readsFrom, askings, digestsOf, List.length_append,
    List.length_map, List.length_map, List.length_map]

theorem standing_ne_waiting :
    standing (digestsOf others) (answered (readsOf registry others version) polls) ≠ .waiting ↔
      InBy registry others version polls := by
  rw [standing_answered, standingOver_ne_waiting, InBy, readsMade_eq]
  simp only [Read.within_isSome]

/-- A question answered wrongly decides what its place among the reads does. -/
theorem otherwise_of_getElem? {place : ℕ} {asking : Asking}
    (h : (askings others version)[place]? = some asking) :
    asking.otherwise = match others[place]? with
      | some (role, _) => .invalid (.missingImage role)
      | none => .incoherent := by
  rw [askings] at h
  by_cases hfirst : place < others.length
  · rw [List.getElem?_append_left (by rwa [List.length_map]), List.getElem?_map,
      List.getElem?_eq_getElem hfirst] at h
    rw [List.getElem?_eq_getElem hfirst, ← Option.some_inj.mp h]
    rfl
  · rw [List.getElem?_append_right (by rw [List.length_map]; omega), List.getElem?_map,
      Option.map_eq_some_iff] at h
    obtain ⟨other, -, rfl⟩ := h
    rw [List.getElem?_eq_none (by omega)]
    rfl

theorem zip_filterMap_found (others : List Other) (resolved : List Resolved) :
    (others.zip (resolved.map fun found => some (.ok (some found) : ReadAnswer))).filterMap
      resolvedImage = (others.map Prod.fst).zip resolved := by
  induction others generalizing resolved with
  | nil => rfl
  | cons other others ih =>
    cases resolved with
    | nil => rfl
    | cons found resolved =>
      rw [List.map_cons, List.map_cons, List.zip_cons_cons, List.zip_cons_cons,
        List.filterMap_cons, ih]
      rfl

/-- Once the reads the rule makes are in, what is concluded is what the rule finds. -/
theorem concluded_answered (h : InBy registry others version polls) :
    concluded others (answered (readsOf registry others version) polls) =
      foundInTurn registry others version := by
  have hrun := runFrom_mapM registry 0 polls 0 (askings others version)
  have hsettled := standing_ne_waiting.mpr h
  rw [digests_askings, ← readsOf_eq, ← standing_answered] at hrun
  rw [concluded, foundInTurn, runFrom_asked]
  cases hstanding : standing (digestsOf others)
      (answered (readsOf registry others version) polls) with
  | waiting => exact absurd hstanding hsettled
  | failed index =>
    rw [hstanding] at hrun
    obtain ⟨place, asking, answer, hindex, hanswered, hasked, hends⟩ := hrun
    rw [Nat.zero_add] at hindex
    subst hindex
    rw [hends]
    simp only [hanswered]
    cases answer with
    | error error => rfl
    | ok found =>
      show _ = Found.ofRule (.error (.decided asking.otherwise))
      rw [otherwise_of_getElem? hasked]
      cases others[index]? <;> rfl
  | passed =>
    rw [hstanding] at hrun
    obtain ⟨resolved, hanswered, hends⟩ := hrun
    rw [hends, hanswered]
    show Found.ofRule (.ok (collect (List.filterMap _ _))) = _
    rw [zip_filterMap_found]
    rfl

/-! ### When it returns -/

theorem InBy.mono {first second : ℕ} (h : InBy registry others version first)
    (hle : first ≤ second) : InBy registry others version second := by
  intro read hread
  obtain ⟨now, hlt, hready⟩ := h read hread
  exact ⟨now, by omega, hready⟩

/-- Nothing is in before the first poll, so the rule makes no read. -/
theorem readsOf_of_inBy_zero (h : InBy registry others version 0) :
    readsOf registry others version = [] := by
  cases others with
  | nil => rfl
  | cons other others =>
    have hfirst : registry.resolve 0 other.2.repository other.2.digest ∈
        (readsOf registry (other :: others) version).take
          (readsMade registry (other :: others) version) := by
      rw [readsMade_eq, readsOf_eq]
      show _ ∈ (registry.resolve 0 other.2.repository other.2.digest :: _).take (ite _ _ _)
      split <;> simp
    obtain ⟨now, hlt, -⟩ := h _ hfirst
    omega

theorem inBy_of_endsAt {now : ℕ}
    (h : EndsAt (readsOf registry others version) (settled (digestsOf others)) now) :
    InBy registry others version (now + 1) := by
  obtain hall | ⟨-, hsettled⟩ := h
  · intro read hread
    exact Read.within_isSome.mp (hall read (List.mem_of_mem_take hread))
  · exact standing_ne_waiting.mp (bne_iff_ne.mp hsettled)

/-- The poll that brings in the last read the rule makes is one that returns. -/
theorem endsAt_of_inBy {now : ℕ} (hbefore : ¬ InBy registry others version now)
    (h : InBy registry others version (now + 1)) :
    EndsAt (readsOf registry others version) (settled (digestsOf others)) now := by
  refine .inr ⟨?_, bne_iff_ne.mpr (standing_ne_waiting.mpr h)⟩
  simp only [InBy, not_forall] at hbefore
  obtain ⟨read, hread, hout⟩ := hbefore
  have hnone : read.within now = none := by
    rw [← Option.not_isSome_iff_eq_none, Read.within_isSome]
    exact hout
  obtain ⟨last, hlt, hready⟩ := h read hread
  have hlast : last = now := by
    by_contra hne
    exact hout ⟨last, by omega, hready⟩
  exact ⟨read, List.mem_of_mem_take hread, hnone, hlast ▸ hready⟩

theorem exists_endsAt (hpolls : 0 < polls) (h : InBy registry others version polls) :
    ∃ now < polls, EndsAt (readsOf registry others version) (settled (digestsOf others)) now := by
  classical
  have hex : ∃ first, InBy registry others version first := ⟨polls, h⟩
  have hle := Nat.find_min' hex h
  have hfirst := Nat.find_spec hex
  have hleast : ∀ earlier < Nat.find hex, ¬ InBy registry others version earlier :=
    fun _ => Nat.find_min hex
  generalize Nat.find hex = first at hle hfirst hleast
  cases first with
  | zero =>
    refine ⟨0, hpolls, .inl ?_⟩
    rw [readsOf_of_inBy_zero hfirst]
    exact fun _ => nofun
  | succ now => exact ⟨now, by omega, endsAt_of_inBy (hleast now (by omega)) hfirst⟩

theorem answered_of_together (answers : List (Option ReadAnswer)) :
    together (readsOf registry others version) (settled (digestsOf others)) polls = some answers →
      InBy registry others version polls ∧ ∃ last < polls,
        InBy registry others version (last + 1) ∧
        answered (readsOf registry others version) (last + 1) = answers := by
  intro h
  obtain ⟨last, hlt, hends, -, hanswers⟩ := together_eq_some.mp h
  have hin := inBy_of_endsAt hends
  exact ⟨hin.mono hlt, last, hlt, hin, hanswers⟩

theorem exists_together (hpolls : 0 < polls) (h : InBy registry others version polls) :
    ∃ answers, together (readsOf registry others version) (settled (digestsOf others)) polls =
      some answers := by
  classical
  have hex : ∃ now, EndsAt (readsOf registry others version) (settled (digestsOf others)) now :=
    (exists_endsAt hpolls h).imp fun _ hnow => hnow.2
  obtain ⟨now, hlt, hnow⟩ := exists_endsAt hpolls h
  refine ⟨_, together_eq_some.mpr ⟨Nat.find hex, ?_, Nat.find_spec hex, fun _ => Nat.find_min hex,
    rfl⟩⟩
  exact (Nat.find_min' hex hnow).trans_lt hlt

/-- The images asked at once give what the rule finds, as soon as its reads are in. -/
theorem found_eq_some (result : Found) :
    found registry others version polls = some result ↔
      0 < polls ∧ InBy registry others version polls ∧
        foundInTurn registry others version = result := by
  rw [found, Option.map_eq_some_iff]
  constructor
  · rintro ⟨answers, htogether, hconcluded⟩
    obtain ⟨hin, last, hlt, hlast, rfl⟩ := answered_of_together answers htogether
    exact ⟨by omega, hin, (concluded_answered hlast).symm.trans hconcluded⟩
  · rintro ⟨hpolls, hin, hresult⟩
    obtain ⟨answers, htogether⟩ := exists_together hpolls hin
    obtain ⟨-, last, -, hlast, rfl⟩ := answered_of_together answers htogether
    exact ⟨_, htogether, (concluded_answered hlast).trans hresult⟩

end Together

/-- Whatever order the reads become ready in, `found` returns what asking one after another
returns, at the poll that brings in the last read the rule makes and never without it; and so
does the check of a release it is the first part of. -/
theorem images_found_as_in_turn (registry : Registry) (polls : ℕ) :
    (∀ (others : List Other) (version : String),
      (∀ result, found registry others version polls = some result ↔
        0 < polls ∧ InBy registry others version polls ∧
          foundInTurn registry others version = result) ∧
      (∀ answers, together (readsOf registry others version) (settled (digestsOf others)) polls =
        some answers → standing (digestsOf others) answers ≠ .waiting)) ∧
    ∀ (claimed : Claimed) (evaluation : Except RegistryError Evaluation),
      check registry claimed polls = some evaluation ↔
        0 < polls ∧ InBy registry claimed.others claimed.version.asStr polls ∧
          evaluated claimed (foundInTurn registry claimed.others claimed.version.asStr) =
            evaluation := by
  refine ⟨fun others version => ⟨fun result => found_eq_some result, fun answers h => ?_⟩,
    fun claimed evaluation => ?_⟩
  · obtain ⟨-, last, -, hlast, rfl⟩ := answered_of_together answers h
    exact standing_ne_waiting.mpr hlast
  · rw [check, Option.map_eq_some_iff]
    constructor
    · rintro ⟨result, hfound, hevaluated⟩
      obtain ⟨hpolls, hin, rfl⟩ := (found_eq_some result).mp hfound
      exact ⟨hpolls, hin, hevaluated⟩
    · rintro ⟨hpolls, hin, hevaluated⟩
      exact ⟨_, (found_eq_some _).mpr ⟨hpolls, hin, rfl⟩, hevaluated⟩

end Platform
end SaasFabric
