import Mathlib.Data.List.Nodup
import Mathlib.Tactic.Common
import SaasFabric.Library.Json

/-!
# YAML values

A YAML document as a tree: mappings keep their entries in the order they were written in, a
tag stands around the value it is put on.  Editing one key of a mapping in its place, and
what a derived reader makes of a value.
-/

namespace SaasFabric
namespace Library

/-- A YAML value, over a type of numbers. -/
inductive Yaml (N : Type) where
  | null
  | bool (value : Bool)
  | number (value : N)
  | string (text : String)
  | sequence (items : List (Yaml N))
  | mapping (entries : List (Yaml N × Yaml N))
  | tagged (tag : String) (value : Yaml N)

namespace Yaml

variable {N T : Type}

section Equality

variable [DecidableEq N]

mutual

/-- Equality of values is decided structurally. -/
def decEq : (a b : Yaml N) → Decidable (a = b)
  | .null, .null => isTrue rfl
  | .bool a, .bool b => decidable_of_iff (a = b) (by simp)
  | .number a, .number b => decidable_of_iff (a = b) (by simp)
  | .string a, .string b => decidable_of_iff (a = b) (by simp)
  | .sequence a, .sequence b =>
      match decEqItems a b with
      | isTrue h => isTrue (by rw [h])
      | isFalse h => isFalse (by simpa using h)
  | .mapping a, .mapping b =>
      match decEqEntries a b with
      | isTrue h => isTrue (by rw [h])
      | isFalse h => isFalse (by simpa using h)
  | .tagged tag a, .tagged other b =>
      match decEq a b with
      | isTrue h => decidable_of_iff (tag = other) (by simp [h])
      | isFalse h => isFalse (by simp [h])
  | .null, .bool _ | .null, .number _ | .null, .string _ | .null, .sequence _ | .null, .mapping _
  | .null, .tagged _ _
  | .bool _, .null | .bool _, .number _ | .bool _, .string _ | .bool _, .sequence _
  | .bool _, .mapping _ | .bool _, .tagged _ _
  | .number _, .null | .number _, .bool _ | .number _, .string _ | .number _, .sequence _
  | .number _, .mapping _ | .number _, .tagged _ _
  | .string _, .null | .string _, .bool _ | .string _, .number _ | .string _, .sequence _
  | .string _, .mapping _ | .string _, .tagged _ _
  | .sequence _, .null | .sequence _, .bool _ | .sequence _, .number _ | .sequence _, .string _
  | .sequence _, .mapping _ | .sequence _, .tagged _ _
  | .mapping _, .null | .mapping _, .bool _ | .mapping _, .number _ | .mapping _, .string _
  | .mapping _, .sequence _ | .mapping _, .tagged _ _
  | .tagged _ _, .null | .tagged _ _, .bool _ | .tagged _ _, .number _ | .tagged _ _, .string _
  | .tagged _ _, .sequence _ | .tagged _ _, .mapping _ => isFalse (by simp)

def decEqItems : (a b : List (Yaml N)) → Decidable (a = b)
  | [], [] => isTrue rfl
  | [], _ :: _ | _ :: _, [] => isFalse (by simp)
  | a :: as, b :: bs =>
      match decEq a b, decEqItems as bs with
      | isTrue h, isTrue hs => isTrue (by rw [h, hs])
      | isFalse h, _ => isFalse (by simp [h])
      | _, isFalse hs => isFalse (by simp [hs])

def decEqEntries : (a b : List (Yaml N × Yaml N)) → Decidable (a = b)
  | [], [] => isTrue rfl
  | [], _ :: _ | _ :: _, [] => isFalse (by simp)
  | (ka, a) :: as, (kb, b) :: bs =>
      match decEq ka kb, decEq a b, decEqEntries as bs with
      | isTrue hk, isTrue h, isTrue hs => isTrue (by rw [hk, h, hs])
      | isFalse hk, _, _ => isFalse (by simp [hk])
      | _, isFalse h, _ => isFalse (by simp [h])
      | _, _, isFalse hs => isFalse (by simp [hs])

end

instance : DecidableEq (Yaml N) := decEq

end Equality

/-! ## Reading a value -/

/-- A value without the tags around it. -/
def untag : Yaml N → Yaml N
  | .tagged _ value => untag value
  | value => value

/-- A mapping's entries, under any tags. -/
def asMapping (value : Yaml N) : Option (List (Yaml N × Yaml N)) :=
  match value.untag with
  | .mapping entries => some entries
  | _ => none

/-- A sequence's items, under any tags. -/
def asSequence (value : Yaml N) : Option (List (Yaml N)) :=
  match value.untag with
  | .sequence items => some items
  | _ => none

/-- A string, under any tags. -/
def asStr (value : Yaml N) : Option String :=
  match value.untag with
  | .string text => some text
  | _ => none

/-- The key is this name, bare of tags. -/
def isName (name : String) : Yaml N → Bool
  | .string text => text == name
  | _ => false

theorem isName_iff {name : String} {key : Yaml N} : isName name key = true ↔ key = .string name := by
  cases key <;> simp [isName]

/-! ## One key of a mapping -/

/-- The value a mapping holds under a name. -/
def getEntry (name : String) (entries : List (Yaml N × Yaml N)) : Option (Yaml N) :=
  (entries.find? fun entry => isName name entry.1).map Prod.snd

/-- A name is given a value: where it stands, or at the end. -/
def insertEntry (name : String) (value : Yaml N) :
    List (Yaml N × Yaml N) → List (Yaml N × Yaml N)
  | [] => [(.string name, value)]
  | entry :: rest =>
      if isName name entry.1 then (entry.1, value) :: rest
      else entry :: insertEntry name value rest

/-- A name is taken out, and the last entry moves into its place. -/
def swapRemoveEntry (name : String) : List (Yaml N × Yaml N) → List (Yaml N × Yaml N)
  | [] => []
  | entry :: rest =>
      if isName name entry.1 then
        match rest.getLast? with
        | none => []
        | some last => last :: rest.dropLast
      else entry :: swapRemoveEntry name rest

/-- The value under a name is edited where it stands. -/
def updateEntry (name : String) (edit : Yaml N → Option (Yaml N)) :
    List (Yaml N × Yaml N) → Option (List (Yaml N × Yaml N))
  | [] => none
  | entry :: rest =>
      if isName name entry.1 then (edit entry.2).map fun value => (entry.1, value) :: rest
      else (updateEntry name edit rest).map (entry :: ·)

/-- The value under a name, of a value that is a mapping. -/
def get (name : String) (value : Yaml N) : Option (Yaml N) :=
  value.asMapping.bind (getEntry name)

/-- A mapping's entries are edited, under any tags. -/
def editMapping (edit : List (Yaml N × Yaml N) → Option (List (Yaml N × Yaml N))) :
    Yaml N → Option (Yaml N)
  | .tagged tag value => (editMapping edit value).map (.tagged tag)
  | .mapping entries => (edit entries).map .mapping
  | _ => none

/-- A sequence's items are edited, under any tags. -/
def editSequence (edit : List (Yaml N) → List (Yaml N)) : Yaml N → Option (Yaml N)
  | .tagged tag value => (editSequence edit value).map (.tagged tag)
  | .sequence items => some (.sequence (edit items))
  | _ => none

/-- `insert` on a value that is a mapping. -/
def insert (name : String) (value : Yaml N) : Yaml N → Option (Yaml N) :=
  editMapping fun entries => some (insertEntry name value entries)

/-- `remove` on a value that is a mapping. -/
def remove (name : String) : Yaml N → Option (Yaml N) :=
  editMapping fun entries => some (swapRemoveEntry name entries)

/-- The value under a name is edited, in a value that is a mapping. -/
def update (name : String) (edit : Yaml N → Option (Yaml N)) : Yaml N → Option (Yaml N) :=
  editMapping (updateEntry name edit)

theorem getEntry_cons (name : String) (entry : Yaml N × Yaml N) (rest : List (Yaml N × Yaml N)) :
    getEntry name (entry :: rest) =
      if isName name entry.1 then some entry.2 else getEntry name rest := by
  unfold getEntry
  rw [List.find?_cons]
  cases isName name entry.1 <;> rfl

/-- What was inserted is there. -/
theorem getEntry_insertEntry (name : String) (value : Yaml N) (entries : List (Yaml N × Yaml N)) :
    getEntry name (insertEntry name value entries) = some value := by
  induction entries with
  | nil => simp [insertEntry, getEntry_cons, isName]
  | cons entry rest ih =>
      rw [insertEntry]
      by_cases hname : isName name entry.1 = true
      · rw [if_pos hname, getEntry_cons, if_pos hname]
      · rw [if_neg hname, getEntry_cons, if_neg hname, ih]

/-- Writing a value that is there already changes nothing. -/
theorem insertEntry_of_getEntry {name : String} {value : Yaml N} {entries : List (Yaml N × Yaml N)}
    (h : getEntry name entries = some value) : insertEntry name value entries = entries := by
  induction entries with
  | nil => simp [getEntry] at h
  | cons entry rest ih =>
      rw [getEntry_cons] at h
      rw [insertEntry]
      by_cases hname : isName name entry.1 = true
      · rw [if_pos hname] at h ⊢
        rw [← Option.some.inj h]
      · rw [if_neg hname] at h ⊢
        rw [ih h]

/-- What an update leaves under its name. -/
theorem getEntry_updateEntry {name : String} {edit : Yaml N → Option (Yaml N)}
    {entries updated : List (Yaml N × Yaml N)} (h : updateEntry name edit entries = some updated) :
    ∃ old new, getEntry name entries = some old ∧ edit old = some new ∧
      getEntry name updated = some new := by
  induction entries generalizing updated with
  | nil => exact nomatch h
  | cons entry rest ih =>
      rw [updateEntry] at h
      by_cases hname : isName name entry.1 = true
      · rw [if_pos hname] at h
        obtain ⟨new, hnew, rfl⟩ := Option.map_eq_some_iff.mp h
        refine ⟨entry.2, new, ?_, hnew, ?_⟩
        · rw [getEntry_cons, if_pos hname]
        · rw [getEntry_cons, if_pos hname]
      · rw [if_neg hname] at h
        obtain ⟨tail, htail, rfl⟩ := Option.map_eq_some_iff.mp h
        obtain ⟨old, new, hold, hedit, hnew⟩ := ih htail
        refine ⟨old, new, ?_, hedit, ?_⟩
        · rw [getEntry_cons, if_neg hname, hold]
        · rw [getEntry_cons, if_neg hname, hnew]

/-- An update that leaves its value as it is changes nothing. -/
theorem updateEntry_of_getEntry {name : String} {edit : Yaml N → Option (Yaml N)} {value : Yaml N}
    {entries : List (Yaml N × Yaml N)} (hget : getEntry name entries = some value)
    (hedit : edit value = some value) : updateEntry name edit entries = some entries := by
  induction entries with
  | nil => simp [getEntry] at hget
  | cons entry rest ih =>
      rw [getEntry_cons] at hget
      rw [updateEntry]
      by_cases hname : isName name entry.1 = true
      · rw [if_pos hname] at hget ⊢
        rw [Option.some.inj hget, hedit, ← Option.some.inj hget]
        rfl
      · rw [if_neg hname] at hget ⊢
        rw [ih hget]
        rfl

/-! ## Editing under tags -/

/-- What an edit makes of the entries under the tags. -/
theorem asMapping_editMapping {edit : List (Yaml N × Yaml N) → Option (List (Yaml N × Yaml N))}
    {value edited : Yaml N} (h : editMapping edit value = some edited) :
    ∃ entries after, value.asMapping = some entries ∧ edit entries = some after ∧
      edited.asMapping = some after := by
  induction value using editMapping.induct generalizing edited with
  | case1 tag value ih =>
      obtain ⟨inner, hinner, rfl⟩ := Option.map_eq_some_iff.mp h
      obtain ⟨entries, after, hentries, hafter, hedited⟩ := ih hinner
      exact ⟨entries, after, hentries, hafter, hedited⟩
  | case2 entries =>
      obtain ⟨after, hafter, rfl⟩ := Option.map_eq_some_iff.mp h
      exact ⟨entries, after, rfl, hafter, rfl⟩
  | case3 value htagged hmapping =>
      cases value with
      | tagged tag value => exact absurd rfl (htagged tag value)
      | mapping entries => exact absurd rfl (hmapping entries)
      | _ => exact nomatch h

/-- An edit that changes no entry changes nothing. -/
theorem editMapping_of_asMapping {edit : List (Yaml N × Yaml N) → Option (List (Yaml N × Yaml N))}
    {value : Yaml N} {entries : List (Yaml N × Yaml N)} (hentries : value.asMapping = some entries)
    (hedit : edit entries = some entries) : editMapping edit value = some value := by
  induction value using editMapping.induct with
  | case1 tag value ih =>
      rw [editMapping, ih hentries]
      rfl
  | case2 inner =>
      obtain rfl : inner = entries := Option.some.inj hentries
      rw [editMapping, hedit]
      rfl
  | case3 value htagged hmapping =>
      cases value with
      | tagged tag value => exact absurd rfl (htagged tag value)
      | mapping entries => exact absurd rfl (hmapping entries)
      | _ => exact nomatch hentries

/-- What was inserted is there. -/
theorem get_insert {name : String} {new value edited : Yaml N}
    (h : insert name new value = some edited) : get name edited = some new := by
  obtain ⟨entries, after, -, hafter, hedited⟩ := asMapping_editMapping h
  unfold get
  rw [hedited, ← Option.some.inj hafter]
  exact getEntry_insertEntry name new entries

/-- Writing a value that is there already changes nothing. -/
theorem insert_of_get {name : String} {new value : Yaml N} (h : get name value = some new) :
    insert name new value = some value := by
  obtain ⟨entries, hentries, hget⟩ := Option.bind_eq_some_iff.mp h
  exact editMapping_of_asMapping hentries (congrArg some (insertEntry_of_getEntry hget))

/-- What an update leaves under its name. -/
theorem get_update {name : String} {edit : Yaml N → Option (Yaml N)} {value edited : Yaml N}
    (h : update name edit value = some edited) :
    ∃ old new, get name value = some old ∧ edit old = some new ∧ get name edited = some new := by
  obtain ⟨entries, after, hentries, hafter, hedited⟩ := asMapping_editMapping h
  obtain ⟨old, new, hold, hnew, hget⟩ := getEntry_updateEntry hafter
  refine ⟨old, new, ?_, hnew, ?_⟩
  · unfold get
    rw [hentries]
    exact hold
  · unfold get
    rw [hedited]
    exact hget

/-- An update that leaves its value as it is changes nothing. -/
theorem update_of_get {name : String} {edit : Yaml N → Option (Yaml N)} {old value : Yaml N}
    (hget : get name value = some old) (hedit : edit old = some old) :
    update name edit value = some value := by
  obtain ⟨entries, hentries, hentry⟩ := Option.bind_eq_some_iff.mp hget
  exact editMapping_of_asMapping hentries (updateEntry_of_getEntry hentry hedit)

/-! ## Derived readers -/

/-- The entries of a mapping by the texts of their keys. -/
def namesOf : List (Yaml N × Yaml N) → Option (List (String × Yaml N))
  | [] => some []
  | entry :: rest =>
      match entry.1.asStr, namesOf rest with
      | some name, some members => some ((name, entry.2) :: members)
      | _, _ => none

/-- The members a struct is read from; `null` stands for none. -/
def members (value : Yaml N) : Option (List (String × Yaml N)) :=
  match value.untag with
  | .mapping entries => namesOf entries
  | .null => some []
  | _ => none

/-- The members that a struct has fields for.  A repeated field is refused, and where the
struct is closed so is any other member. -/
def taken (shape : Shape) (members : List (String × Yaml N)) : Option (List (String × Yaml N)) :=
  if shape.closed && !members.all fun member => decide (member.1 ∈ shape.fields) then none
  else if ((members.filter fun member => decide (member.1 ∈ shape.fields)).map Prod.fst).Nodup then
    some (members.filter fun member => decide (member.1 ∈ shape.fields))
  else none

/-- What the fields of a struct are read from. -/
def fields (shape : Shape) (value : Yaml N) : Option (List (String × Yaml N)) :=
  value.members.bind (taken shape)

/-- A field that has to be there. -/
def required (fields : List (String × Yaml N)) (name : String) (read : Yaml N → Option T) :
    Option T :=
  (fields.lookup name).bind read

/-- A field with a default. -/
def defaulted (fields : List (String × Yaml N)) (name : String) (read : Yaml N → Option T)
    (default : T) : Option T :=
  match fields.lookup name with
  | none => some default
  | some value => read value

/-- `null`, or a value. -/
def optional (read : Yaml N → Option T) : Yaml N → Option (Option T)
  | .null => some none
  | value => (read value).map some

/-- A list; `null` stands for the empty one. -/
def items (read : Yaml N → Option T) (value : Yaml N) : Option (List T) :=
  match value.untag with
  | .sequence items => items.mapM read
  | .null => some []
  | _ => none

mutual

/-- Some value in it, keys included, has a tag. -/
def hasTag : Yaml N → Bool
  | .tagged _ _ => true
  | .sequence items => hasTagItems items
  | .mapping entries => hasTagEntries entries
  | _ => false

def hasTagItems : List (Yaml N) → Bool
  | [] => false
  | item :: rest => hasTag item || hasTagItems rest

def hasTagEntries : List (Yaml N × Yaml N) → Bool
  | [] => false
  | entry :: rest => hasTag entry.1 || hasTag entry.2 || hasTagEntries rest

end

/-- A tag without its leading mark. -/
def nobang (tag : String) : String :=
  match tag.toList with
  | '!' :: rest => if rest.isEmpty then tag else String.ofList rest
  | _ => tag

/-- A variant that carries nothing: its name, or a tag on `null`. -/
def unitVariant (read : String → Option T) : Yaml N → Option T
  | .string text => read text
  | .tagged tag value =>
      match value.untag with
      | .null => read (nobang tag)
      | _ => none
  | _ => none

theorem namesOf_cons_eq_some {entry : Yaml N × Yaml N} {rest : List (Yaml N × Yaml N)}
    {members : List (String × Yaml N)} : namesOf (entry :: rest) = some members ↔
      ∃ name others, entry.1.asStr = some name ∧ namesOf rest = some others ∧
        members = (name, entry.2) :: others := by
  rw [namesOf]
  cases entry.1.asStr <;> cases namesOf rest <;> simp [eq_comm]

theorem taken_eq_some {shape : Shape} {members taken : List (String × Yaml N)}
    (h : Yaml.taken shape members = some taken) :
    taken = members.filter (fun member => decide (member.1 ∈ shape.fields)) ∧
      (taken.map Prod.fst).Nodup := by
  unfold Yaml.taken at h
  split at h
  · cases h
  · split at h
    · next hnodup =>
      cases h
      exact ⟨rfl, hnodup⟩
    · cases h

theorem lookup_filter {names : List String} {name : String} (h : name ∈ names)
    (members : List (String × Yaml N)) :
    (members.filter fun member => decide (member.1 ∈ names)).lookup name =
      members.lookup name := by
  induction members with
  | nil => rfl
  | cons member rest ih =>
      by_cases hmem : member.1 ∈ names
      · rw [List.filter_cons_of_pos (by simpa using hmem), List.lookup_cons, List.lookup_cons, ih]
      · have hne : (name == member.1) = false := by
          apply beq_false_of_ne
          rintro rfl
          exact hmem h
        rw [List.filter_cons_of_neg (by simpa using hmem), List.lookup_cons, hne, ih]

/-- An entry under a bare name is one of the members. -/
theorem mem_namesOf {name : String} {value : Yaml N} {entries : List (Yaml N × Yaml N)}
    {members : List (String × Yaml N)} (hnames : namesOf entries = some members)
    (hmem : (.string name, value) ∈ entries) : (name, value) ∈ members := by
  induction entries generalizing members with
  | nil => exact absurd hmem List.not_mem_nil
  | cons entry rest ih =>
      obtain ⟨key, others, hkey, hothers, rfl⟩ := namesOf_cons_eq_some.mp hnames
      obtain rfl | hrest := List.mem_cons.mp hmem
      · rw [← Option.some.inj hkey]
        exact List.mem_cons_self
      · exact List.mem_cons_of_mem _ (ih hothers hrest)

/-- Among members whose names differ, a member is what its name is looked up as. -/
theorem lookup_of_mem {members : List (String × Yaml N)} (hnodup : (members.map Prod.fst).Nodup)
    {name : String} {value : Yaml N} (h : (name, value) ∈ members) :
    members.lookup name = some value := by
  induction members with
  | nil => exact absurd h List.not_mem_nil
  | cons member rest ih =>
      obtain ⟨hfirst, hrest⟩ := List.nodup_cons.mp hnodup
      rw [List.lookup_cons]
      obtain rfl | hmem := List.mem_cons.mp h
      · rw [beq_self_eq_true]
      · have hne : (name == member.1) = false := by
          apply beq_false_of_ne
          rintro rfl
          exact hfirst (List.mem_map.mpr ⟨_, hmem, rfl⟩)
        rw [hne]
        exact ih hrest hmem

theorem members_of_asMapping {value : Yaml N} {entries : List (Yaml N × Yaml N)}
    {members : List (String × Yaml N)} (hentries : value.asMapping = some entries)
    (hmembers : value.members = some members) : namesOf entries = some members := by
  unfold asMapping at hentries
  unfold Yaml.members at hmembers
  cases huntag : value.untag with
  | mapping inner =>
      rw [huntag] at hentries hmembers
      rw [← Option.some.inj hentries]
      exact hmembers
  | _ =>
      rw [huntag] at hentries
      cases hentries

/-- A struct's field is what one of its value's entries holds. -/
theorem lookup_fields_of_mem {shape : Shape} {name : String} {value held : Yaml N}
    {entries : List (Yaml N × Yaml N)} {found : List (String × Yaml N)}
    (hentries : value.asMapping = some entries) (hfields : fields shape value = some found)
    (hname : name ∈ shape.fields) (hmem : (.string name, held) ∈ entries) :
    found.lookup name = some held := by
  obtain ⟨members, hmembers, htaken⟩ := Option.bind_eq_some_iff.mp hfields
  obtain ⟨rfl, hnodup⟩ := taken_eq_some htaken
  have hnames : namesOf entries = some members := members_of_asMapping hentries hmembers
  refine lookup_of_mem hnodup (List.mem_filter.mpr ⟨mem_namesOf hnames hmem, ?_⟩)
  exact decide_eq_true hname

theorem mem_of_getEntry {name : String} {held : Yaml N} {entries : List (Yaml N × Yaml N)}
    (h : getEntry name entries = some held) : (.string name, held) ∈ entries := by
  obtain ⟨⟨key, value⟩, hfind, rfl⟩ := Option.map_eq_some_iff.mp h
  have hkey : key = .string name := isName_iff.mp (List.find?_some hfind :)
  rw [← hkey]
  exact List.mem_of_find?_eq_some hfind

theorem isSome_getEntry_of_mem {name : String} {held : Yaml N} {entries : List (Yaml N × Yaml N)}
    (h : (.string name, held) ∈ entries) : (getEntry name entries).isSome = true := by
  unfold getEntry
  rw [Option.isSome_map, List.find?_isSome]
  exact ⟨_, h, isName_iff.mpr rfl⟩

/-- A struct's field is what its value holds under the field's name. -/
theorem lookup_fields_of_get {shape : Shape} {name : String} {value held : Yaml N}
    {found : List (String × Yaml N)} (hfields : fields shape value = some found)
    (hname : name ∈ shape.fields) (hget : get name value = some held) :
    found.lookup name = some held := by
  obtain ⟨entries, hentries, hentry⟩ := Option.bind_eq_some_iff.mp hget
  exact lookup_fields_of_mem hentries hfields hname (mem_of_getEntry hentry)

/-! ## Lists -/

/-- A list whose items are each read back is read back. -/
theorem mapM_of_forall {read : Yaml N → Option T} {write : T → Yaml N} {items : List T}
    (h : ∀ item ∈ items, read (write item) = some item) :
    (items.map write).mapM read = some items := by
  induction items with
  | nil => rfl
  | cons item rest ih =>
      rw [List.map_cons, List.mapM_cons, h item List.mem_cons_self,
        ih fun other hother => h other (List.mem_cons_of_mem _ hother)]
      rfl

theorem hasTagItems_of_forall {items : List (Yaml N)} (h : ∀ item ∈ items, item.hasTag = false) :
    hasTagItems items = false := by
  induction items with
  | nil => rfl
  | cons item rest ih =>
      rw [hasTagItems, h item List.mem_cons_self,
        ih fun other hother => h other (List.mem_cons_of_mem _ hother)]
      rfl

/-! ## Edits and readers -/

/-- The entries other than those under a bare name. -/
def others (name : String) (entries : List (Yaml N × Yaml N)) : List (Yaml N × Yaml N) :=
  entries.filter fun entry => !isName name entry.1

theorem others_insertEntry (name : String) (value : Yaml N) (entries : List (Yaml N × Yaml N)) :
    others name (insertEntry name value entries) = others name entries := by
  unfold others
  induction entries with
  | nil => simp [insertEntry, isName]
  | cons entry rest ih =>
      rw [insertEntry]
      by_cases hname : isName name entry.1 = true
      · rw [if_pos hname, List.filter_cons_of_neg (by simpa using hname),
          List.filter_cons_of_neg (by simpa using hname)]
      · rw [if_neg hname, List.filter_cons_of_pos (by simpa using hname),
          List.filter_cons_of_pos (by simpa using hname), ih]

theorem others_updateEntry {name : String} {edit : Yaml N → Option (Yaml N)}
    {entries after : List (Yaml N × Yaml N)} (h : updateEntry name edit entries = some after) :
    others name after = others name entries := by
  unfold others
  induction entries generalizing after with
  | nil => exact nomatch h
  | cons entry rest ih =>
      rw [updateEntry] at h
      by_cases hname : isName name entry.1 = true
      · rw [if_pos hname] at h
        obtain ⟨new, -, rfl⟩ := Option.map_eq_some_iff.mp h
        rw [List.filter_cons_of_neg (by simpa using hname),
          List.filter_cons_of_neg (by simpa using hname)]
      · rw [if_neg hname] at h
        obtain ⟨tail, htail, rfl⟩ := Option.map_eq_some_iff.mp h
        rw [List.filter_cons_of_pos (by simpa using hname),
          List.filter_cons_of_pos (by simpa using hname), ih htail]

theorem getEntry_others {name other : String} (hne : other ≠ name)
    (entries : List (Yaml N × Yaml N)) :
    getEntry other (others name entries) = getEntry other entries := by
  unfold others
  induction entries with
  | nil => rfl
  | cons entry rest ih =>
      by_cases hname : isName name entry.1 = true
      · have hother : ¬ isName other entry.1 = true := by
          rw [isName_iff] at hname ⊢
          rw [hname]
          simpa using hne.symm
        rw [List.filter_cons_of_neg (by simpa using hname), getEntry_cons, if_neg hother, ih]
      · rw [List.filter_cons_of_pos (by simpa using hname), getEntry_cons, getEntry_cons, ih]

theorem getEntry_of_others {name other : String} (hne : other ≠ name)
    {entries after : List (Yaml N × Yaml N)} (h : others name after = others name entries) :
    getEntry other after = getEntry other entries := by
  rw [← getEntry_others hne after, h, getEntry_others hne]

/-- Another name is found among the entries that are not under this one. -/
theorem lookup_others {name other : String} (hne : other ≠ name)
    {entries : List (Yaml N × Yaml N)} {members : List (String × Yaml N)}
    (h : namesOf entries = some members) : ∃ left, namesOf (others name entries) = some left ∧
      members.lookup other = left.lookup other := by
  induction entries generalizing members with
  | nil =>
      cases h
      exact ⟨[], rfl, rfl⟩
  | cons entry rest ih =>
      obtain ⟨key, tail, hkey, htail, rfl⟩ := namesOf_cons_eq_some.mp h
      obtain ⟨left, hleft, hlookup⟩ := ih htail
      unfold others at hleft ⊢
      by_cases hname : isName name entry.1 = true
      · have hsame : key = name := by
          rw [isName_iff.mp hname] at hkey
          exact (Option.some.inj hkey).symm
        refine ⟨left, ?_, ?_⟩
        · rw [List.filter_cons_of_neg (by simpa using hname), hleft]
        · rw [List.lookup_cons, hsame, beq_false_of_ne hne]
          exact hlookup
      · refine ⟨(key, entry.2) :: left, ?_, ?_⟩
        · rw [List.filter_cons_of_pos (by simpa using hname)]
          exact namesOf_cons_eq_some.mpr ⟨key, left, hkey, hleft, rfl⟩
        · rw [List.lookup_cons, List.lookup_cons, hlookup]

/-- Two values that differ in one entry only are read alike, but for the field of its name. -/
theorem lookup_fields_of_others {shape : Shape} {name other : String} {value edited : Yaml N}
    {entries after : List (Yaml N × Yaml N)} (hentries : value.asMapping = some entries)
    (hafter : edited.asMapping = some after) (hothers : others name after = others name entries)
    {found refound : List (String × Yaml N)} (hfound : fields shape value = some found)
    (hrefound : fields shape edited = some refound) (hne : other ≠ name)
    (hother : other ∈ shape.fields) : refound.lookup other = found.lookup other := by
  obtain ⟨members, hmembers, htaken⟩ := Option.bind_eq_some_iff.mp hfound
  obtain ⟨remembers, hremembers, hretaken⟩ := Option.bind_eq_some_iff.mp hrefound
  rw [(taken_eq_some htaken).1, (taken_eq_some hretaken).1, lookup_filter hother,
    lookup_filter hother]
  have hnames : namesOf entries = some members := members_of_asMapping hentries hmembers
  have hrenames : namesOf after = some remembers := members_of_asMapping hafter hremembers
  obtain ⟨left, hleft, hlookup⟩ := lookup_others hne hnames
  obtain ⟨releft, hreleft, hrelookup⟩ := lookup_others hne hrenames
  rw [hothers, hleft] at hreleft
  rw [hlookup, hrelookup, Option.some.inj hreleft]

/-- A field is not touched by a write to another. -/
theorem lookup_fields_insert {shape : Shape} {name other : String} {new value edited : Yaml N}
    (h : insert name new value = some edited) {found refound : List (String × Yaml N)}
    (hfound : fields shape value = some found) (hrefound : fields shape edited = some refound)
    (hne : other ≠ name) (hother : other ∈ shape.fields) :
    refound.lookup other = found.lookup other := by
  obtain ⟨entries, after, hentries, hedit, hafter⟩ := asMapping_editMapping h
  refine lookup_fields_of_others hentries hafter ?_ hfound hrefound hne hother
  rw [← Option.some.inj hedit]
  exact others_insertEntry name new entries

/-- A field is not touched by an update of another. -/
theorem lookup_fields_update {shape : Shape} {name other : String}
    {edit : Yaml N → Option (Yaml N)} {value edited : Yaml N}
    (h : update name edit value = some edited) {found refound : List (String × Yaml N)}
    (hfound : fields shape value = some found) (hrefound : fields shape edited = some refound)
    (hne : other ≠ name) (hother : other ∈ shape.fields) :
    refound.lookup other = found.lookup other := by
  obtain ⟨entries, after, hentries, hedit, hafter⟩ := asMapping_editMapping h
  exact lookup_fields_of_others hentries hafter (others_updateEntry hedit) hfound hrefound hne
    hother

/-- What a name holds is not touched by a write to another. -/
theorem get_insert_of_ne {name other : String} {new value edited : Yaml N}
    (h : insert name new value = some edited) (hne : other ≠ name) :
    get other edited = get other value := by
  obtain ⟨entries, after, hentries, hedit, hafter⟩ := asMapping_editMapping h
  unfold get
  rw [hentries, hafter, ← Option.some.inj hedit]
  exact getEntry_of_others hne (others_insertEntry name new entries)

/-- What a name holds is not touched by an update of another. -/
theorem get_update_of_ne {name other : String} {edit : Yaml N → Option (Yaml N)}
    {value edited : Yaml N} (h : update name edit value = some edited) (hne : other ≠ name) :
    get other edited = get other value := by
  obtain ⟨entries, after, hentries, hedit, hafter⟩ := asMapping_editMapping h
  unfold get
  rw [hentries, hafter]
  exact getEntry_of_others hne (others_updateEntry hedit)

/-- A key that a struct has no field for changes nothing that is read of it. -/
theorem fields_insert_of_notMem {shape : Shape} {name : String} {new value edited : Yaml N}
    {found : List (String × Yaml N)} (hopen : shape.closed = false) (hname : name ∉ shape.fields)
    (h : insert name new value = some edited) (hfound : fields shape value = some found) :
    fields shape edited = some found := by
  obtain ⟨entries, after, hentries, hedit, hafter⟩ := asMapping_editMapping h
  obtain ⟨members, hmembers, htaken⟩ := Option.bind_eq_some_iff.mp hfound
  have hnames := members_of_asMapping hentries hmembers
  obtain ⟨renamed, hrenamed, hknown⟩ : ∃ renamed, namesOf after = some renamed ∧
      renamed.filter (fun member => decide (member.1 ∈ shape.fields)) =
        members.filter fun member => decide (member.1 ∈ shape.fields) := by
    rw [← Option.some.inj hedit]
    clear hedit hafter htaken hmembers hentries hfound h
    induction entries generalizing members with
    | nil =>
        cases hnames
        exact ⟨[(name, new)], rfl, by simp [hname]⟩
    | cons entry rest ih =>
        obtain ⟨key, others, hkey, hothers, rfl⟩ := namesOf_cons_eq_some.mp hnames
        rw [insertEntry]
        by_cases hentry : isName name entry.1 = true
        · have hsame : name = key := by
            rw [isName_iff.mp hentry] at hkey
            exact Option.some.inj hkey
          rw [if_pos hentry]
          refine ⟨(key, new) :: others, namesOf_cons_eq_some.mpr ⟨key, others, hkey, hothers, rfl⟩, ?_⟩
          rw [← hsame, List.filter_cons_of_neg (by simpa using hname),
            List.filter_cons_of_neg (by simpa using hname)]
        · obtain ⟨renamed, hrenamed, hknown⟩ := ih _ hothers
          rw [if_neg hentry]
          refine ⟨(key, entry.2) :: renamed,
            namesOf_cons_eq_some.mpr ⟨key, renamed, hkey, hrenamed, rfl⟩, ?_⟩
          rw [List.filter_cons, List.filter_cons, hknown]
  have hremembers : edited.members = some renamed := by
    unfold asMapping at hafter
    unfold Yaml.members
    cases huntag : edited.untag with
    | mapping inner =>
        rw [huntag] at hafter
        rw [← hrenamed, ← Option.some.inj hafter]
    | _ =>
        rw [huntag] at hafter
        cases hafter
  unfold fields
  rw [hremembers, Option.bind_some, ← htaken]
  unfold Yaml.taken
  rw [hknown, hopen]
  simp

/-- What is under another name is there still once a name was taken out. -/
theorem mem_swapRemoveEntry {name : String} {entry : Yaml N × Yaml N}
    {entries : List (Yaml N × Yaml N)} (hname : isName name entry.1 = false) :
    entry ∈ swapRemoveEntry name entries ↔ entry ∈ entries := by
  induction entries with
  | nil => rfl
  | cons first rest ih =>
      rw [swapRemoveEntry]
      by_cases hfirst : isName name first.1 = true
      · have hne : entry ≠ first := by
          rintro rfl
          rw [hfirst] at hname
          cases hname
        rw [if_pos hfirst, List.mem_cons, or_iff_right hne]
        cases hlast : rest.getLast? with
        | none => rw [List.getLast?_eq_none_iff.mp hlast]
        | some last =>
            obtain ⟨others, rfl⟩ := List.getLast?_eq_some_iff.mp hlast
            simp [or_comm]
      · rw [if_neg hfirst, List.mem_cons, List.mem_cons, ih]

/-- Under this name a mapping holds one value only. -/
def HoldsOne (name : String) (value : Yaml N) : Prop :=
  ∀ entries, value.asMapping = some entries → ∀ first second, (.string name, first) ∈ entries →
    (.string name, second) ∈ entries → first = second

/-- A field that was read stands in one entry. -/
theorem holdsOne_of_fields {shape : Shape} {name : String} {value : Yaml N}
    {found : List (String × Yaml N)} (hfound : fields shape value = some found)
    (hname : name ∈ shape.fields) : HoldsOne name value := by
  intro entries hentries first second hfirst hsecond
  have hlookup := lookup_fields_of_mem hentries hfound hname hfirst
  rw [lookup_fields_of_mem hentries hfound hname hsecond] at hlookup
  exact (Option.some.inj hlookup).symm

/-- A write to another name leaves it that way. -/
theorem holdsOne_insert {name other : String} {new value edited : Yaml N}
    (h : insert name new value = some edited) (hne : other ≠ name) (hone : HoldsOne other value) :
    HoldsOne other edited := by
  obtain ⟨entries, after, hentries, hedit, hafter⟩ := asMapping_editMapping h
  intro entries' hentries' first second hfirst hsecond
  obtain rfl : after = entries' := Option.some.inj (hafter.symm.trans hentries')
  obtain rfl : insertEntry name new entries = after := Option.some.inj hedit
  have hmem : ∀ held, (.string other, held) ∈ insertEntry name new entries →
      (.string other, held) ∈ entries := by
    intro held hheld
    have hothers : (.string other, held) ∈ others name (insertEntry name new entries) :=
      List.mem_filter.mpr ⟨hheld, by simpa [isName] using hne⟩
    rw [others_insertEntry] at hothers
    exact List.mem_of_mem_filter hothers
  exact hone entries hentries first second (hmem first hfirst) (hmem second hsecond)

/-- What a name holds is not touched when another is taken out. -/
theorem get_remove_of_ne {name other : String} {value edited : Yaml N}
    (h : remove name value = some edited) (hne : other ≠ name) (hone : HoldsOne other value) :
    get other edited = get other value := by
  obtain ⟨entries, after, hentries, hedit, hafter⟩ := asMapping_editMapping h
  obtain rfl : swapRemoveEntry name entries = after := Option.some.inj hedit
  unfold get
  rw [hentries, hafter, Option.bind_some, Option.bind_some]
  have hmem : ∀ held, (.string other, held) ∈ swapRemoveEntry name entries ↔
      (.string other, held) ∈ entries := fun held =>
    mem_swapRemoveEntry (by simpa [isName] using hne)
  cases hget : getEntry other entries with
  | some held =>
      have hheld := mem_of_getEntry hget
      obtain ⟨moved, hmoved⟩ :=
        Option.isSome_iff_exists.mp (isSome_getEntry_of_mem ((hmem held).mpr hheld))
      -- The entries may stand in another order, but only one is under this name.
      have hsame := hone entries hentries held moved hheld ((hmem moved).mp (mem_of_getEntry hmoved))
      rw [hmoved, hsame]
  | none =>
      cases hmoved : getEntry other (swapRemoveEntry name entries) with
      | none => rfl
      | some held =>
          have hsome := isSome_getEntry_of_mem ((hmem held).mp (mem_of_getEntry hmoved))
          rw [hget] at hsome
          cases hsome

end Yaml
end Library
end SaasFabric
