import Mathlib.Data.List.Nodup
import Mathlib.Data.List.Sigma
import Mathlib.Data.List.Forall2
import Gcit.Library.OrderedMap

/-! # Records in JSON documents

A document as a reader meets it: the members of an object in the order of the text,
repeated names and all, and integers apart from other numbers. A codec pairs what is
written for a value with what is read back. A record writes its fields under their
names and leaves out those with nothing to say; it is read back from an object with
these names alone, each at most once, or from an array by position.
-/

namespace Gcit.Library

universe u v

inductive Number where
  | posInt (n : UInt64)
  | negInt (n : Int64)
  | float (bits : UInt64)
  deriving DecidableEq

inductive Document where
  | null
  | bool (b : Bool)
  | number (n : Number)
  | string (s : String)
  | array (items : List Document)
  | object (members : List (String × Document))

namespace Document

/-- The fields of a record with these names. -/
def fields (names : List String) : Document → Option (List (String × Document))
  | .object members =>
    if (members.map Prod.fst).Nodup ∧ ∀ member ∈ members, member.1 ∈ names then some members
    else none
  | .array items => if items.length ≤ names.length then some (names.zip items) else none
  | _ => none

/-- The same for a record that lets other names be. -/
def knownFields (names : List String) : Document → Option (List (String × Document))
  | .object members =>
    let known := members.filter fun member => decide (member.1 ∈ names)
    if (known.map Prod.fst).Nodup then some known else none
  | .array items => if items.length ≤ names.length then some (names.zip items) else none
  | _ => none

/-- The values of the members with this name. -/
def named (name : String) (members : List (String × Document)) : List Document :=
  (members.filter fun member => decide (member.1 = name)).map Prod.snd

def present (fields : List (String × Option Document)) : List (String × Document) :=
  fields.filterMap fun field => field.2.map (field.1, ·)

def record (fields : List (String × Option Document)) : Document := .object (present fields)

theorem mem_present {fields : List (String × Option Document)} {name : String} {d : Document} :
    (name, d) ∈ present fields ↔ (name, some d) ∈ fields := by
  simp only [present, List.mem_filterMap, Option.map_eq_some_iff]
  constructor
  · rintro ⟨⟨_, _⟩, hmem, _, rfl, ⟨⟩⟩
    exact hmem
  · intro hmem
    exact ⟨(name, some d), hmem, d, rfl, rfl⟩

theorem names_present_sublist (fields : List (String × Option Document)) :
    ((present fields).map Prod.fst).Sublist (fields.map Prod.fst) := by
  induction fields with
  | nil => exact .slnil
  | cons field fields ih =>
    obtain ⟨name, d⟩ := field
    cases d with
    | none => exact ih.cons name
    | some d => exact ih.cons_cons name

theorem fields_record {names : List String} {fields : List (String × Option Document)}
    (hnodup : (fields.map Prod.fst).Nodup) (hnames : fields.map Prod.fst = names) :
    (record fields).fields names = some (present fields) := by
  have hsub := names_present_sublist fields
  refine if_pos ⟨hsub.nodup hnodup, fun member hmem => ?_⟩
  exact hnames ▸ hsub.subset (List.mem_map_of_mem hmem)

theorem knownFields_record {names : List String} {fields : List (String × Option Document)}
    (hnodup : (fields.map Prod.fst).Nodup) (hnames : fields.map Prod.fst = names) :
    (record fields).knownFields names = some (present fields) := by
  have hsub := names_present_sublist fields
  have hknown : (present fields).filter (fun member => decide (member.1 ∈ names)) =
      present fields := by
    refine List.filter_eq_self.mpr fun member hmem => decide_eq_true ?_
    exact hnames ▸ hsub.subset (List.mem_map_of_mem hmem)
  simp only [record, knownFields, hknown, if_pos (hsub.nodup hnodup)]

theorem names_zip_sublist (names : List String) (items : List Document) :
    ((names.zip items).map Prod.fst).Sublist names := by
  induction names generalizing items with
  | nil => exact .slnil
  | cons name names ih =>
    cases items with
    | nil => exact List.nil_sublist _
    | cons item items => exact (ih items).cons_cons name

theorem fields_spec {names : List String} {d : Document} {fields : List (String × Document)}
    (hnodup : names.Nodup) (h : d.fields names = some fields) :
    (fields.map Prod.fst).Nodup ∧ ∀ field ∈ fields, field.1 ∈ names := by
  unfold Document.fields at h
  split at h
  · obtain ⟨hspec, heq⟩ := Option.ite_none_right_eq_some.mp h
    obtain rfl := Option.some.inj heq
    exact hspec
  · next items =>
    obtain ⟨hle, heq⟩ := Option.ite_none_right_eq_some.mp h
    obtain rfl := Option.some.inj heq
    have hsub := names_zip_sublist names items
    refine ⟨hsub.nodup hnodup, fun field hmem => ?_⟩
    exact hsub.subset (List.mem_map_of_mem hmem)
  · cases h

theorem lookup_of_mem {β : Type u} {members : List (String × β)} {name : String} {d : β}
    (hnodup : (members.map Prod.fst).Nodup) (hmem : (name, d) ∈ members) :
    members.lookup name = some d := by
  obtain ⟨before, after, rfl⟩ := List.append_of_mem hmem
  refine List.lookup_eq_some_iff.mpr ⟨before, after, rfl, fun member hbefore => ?_⟩
  rw [List.map_append, List.map_cons] at hnodup
  have hdisjoint := List.disjoint_of_nodup_append hnodup (List.mem_map_of_mem hbefore)
  refine bne_iff_ne.mpr fun hname => hdisjoint ?_
  exact hname ▸ List.mem_cons_self

theorem mem_of_lookup {β : Type u} {members : List (String × β)} {name : String} {d : β}
    (h : members.lookup name = some d) : (name, d) ∈ members := by
  obtain ⟨before, after, rfl, -⟩ := List.lookup_eq_some_iff.mp h
  exact List.mem_append_cons_self

theorem exists_lookup {β : Type u} {members : List (String × β)} {member : String × β}
    (h : member ∈ members) : ∃ d, members.lookup member.1 = some d := by
  apply Option.ne_none_iff_exists'.mp
  intro hnone
  have hne := List.lookup_eq_none_iff.mp hnone member h
  exact bne_iff_ne.mp hne rfl

theorem lookup_eq_head?_named (members : List (String × Document)) (name : String) :
    members.lookup name = (named name members).head? := by
  induction members with
  | nil => rfl
  | cons member members ih =>
    obtain ⟨other, d⟩ := member
    rw [List.lookup_cons, named]
    rcases eq_or_ne other name with rfl | hne
    · have hhead : (List.filter (fun member => decide (member.1 = other)) ((other, d) :: members)) =
          (other, d) :: members.filter fun member => decide (member.1 = other) :=
        List.filter_cons_of_pos (decide_eq_true rfl)
      rw [beq_self_eq_true, hhead]
      rfl
    · rw [beq_eq_false_iff_ne.mpr hne.symm, List.filter_cons_of_neg (by simpa using hne), ih, named]

theorem named_filter {names : List String} {name : String} (hname : name ∈ names)
    (members : List (String × Document)) :
    named name (members.filter fun member => decide (member.1 ∈ names)) = named name members := by
  rw [named, named, List.filter_filter]
  congr 1
  refine List.filter_congr fun member _ => ?_
  rcases eq_or_ne member.1 name with rfl | hne
  · simp [hname]
  · simp [hne]

theorem lookup_known {names : List String} {name : String} (hname : name ∈ names)
    (members : List (String × Document)) :
    (members.filter fun member => decide (member.1 ∈ names)).lookup name =
      (named name members).head? := by
  rw [lookup_eq_head?_named, named_filter hname]

/-- A record that lets other names be is read from the members with its names, each of
which is there once at most. -/
theorem knownFields_object_eq_some {names : List String} {members known : List (String × Document)} :
    knownFields names (.object members) = some known ↔
      known = members.filter (fun member => decide (member.1 ∈ names)) ∧
        ∀ name ∈ names, (named name members).length ≤ 1 := by
  have hcount (name : String) (hname : name ∈ names) :
      ((members.filter fun member => decide (member.1 ∈ names)).map Prod.fst).count name =
        (named name members).length := by
    rw [← named_filter hname, named, List.length_map, List.count_eq_countP, List.countP_map,
      List.countP_eq_length_filter]
    rfl
  have hnodup : ((members.filter fun member => decide (member.1 ∈ names)).map Prod.fst).Nodup ↔
      ∀ name ∈ names, (named name members).length ≤ 1 := by
    rw [List.nodup_iff_count_le_one]
    constructor
    · intro h name hname
      exact hcount name hname ▸ h name
    · intro h name
      by_cases hname : name ∈ names
      · exact hcount name hname ▸ h name hname
      · rw [List.count_eq_zero_of_not_mem]
        · exact Nat.zero_le 1
        intro hmem
        apply hname
        obtain ⟨member, hmember, rfl⟩ := List.mem_map.mp hmem
        exact of_decide_eq_true (List.mem_filter.mp hmember).2
  simp only [knownFields, hnodup, Option.ite_none_right_eq_some, Option.some.injEq]
  rw [and_comm, eq_comm]

theorem lookup_present {fields : List (String × Option Document)} {name : String}
    {d : Option Document} (hnodup : (fields.map Prod.fst).Nodup) (hmem : (name, d) ∈ fields) :
    (present fields).lookup name = d := by
  cases d with
  | some d =>
    exact lookup_of_mem ((names_present_sublist fields).nodup hnodup) (mem_present.mpr hmem)
  | none =>
    apply List.lookup_eq_none_iff.mpr
    intro member hpresent
    have hsome : (member.1, some member.2) ∈ fields := mem_present.mp hpresent
    apply bne_iff_ne.mpr
    intro hname
    have heq := List.inj_on_of_nodup_map hnodup hmem hsome hname
    cases heq

end Document

/-- What is written for a value, and how it is read back. -/
structure Codec (α : Type u) where
  write : α → Document
  read : Document → Option α
  read_write : ∀ a, read (write a) = some a
  write_ne_null : ∀ a, write a ≠ .null

namespace Codec

variable {α : Type u} (c : Codec α) (fields : List (String × Document)) (name : String)

def string : Codec String where
  write := .string
  read
    | .string s => some s
    | _ => none
  read_write _ := rfl
  write_ne_null _ := nofun

def uint64 : Codec UInt64 where
  write n := .number (.posInt n)
  read
    | .number (.posInt n) => some n
    | _ => none
  read_write _ := rfl
  write_ne_null _ := nofun

def uint32 : Codec UInt32 where
  write n := .number (.posInt n.toUInt64)
  read
    | .number (.posInt n) => if n.toNat < UInt32.size then some n.toUInt32 else none
    | _ => none
  read_write n := by
    have hlt : n.toNat < UInt32.size := n.toNat_lt
    simp [hlt]
  write_ne_null _ := nofun

def boolean : Codec Bool where
  write := .bool
  read
    | .bool b => some b
    | _ => none
  read_write _ := rfl
  write_ne_null _ := nofun

def required : Option α := (fields.lookup name).bind c.read

def optional : Option (Option α) :=
  match fields.lookup name with
  | none | some .null => some none
  | some d => (c.read d).map some

def items : Option (List α) :=
  match fields.lookup name with
  | none => some []
  | some (.array ds) => ds.mapM c.read
  | some _ => none

def flag : Option Bool :=
  match fields.lookup name with
  | none => some false
  | some d => boolean.read d

def requiredField (a : α) : String × Option Document := (name, some (c.write a))

def optionalField (a : Option α) : String × Option Document := (name, a.map c.write)

def itemsField (l : List α) : String × Option Document :=
  (name, if l.isEmpty then none else some (.array (l.map c.write)))

def flagField (b : Bool) : String × Option Document :=
  (name, if b then some (.bool true) else none)

variable {c fields name}

/-! A record is read back field by field. -/

section Present

variable {written : List (String × Option Document)}

theorem required_present {a : α} (hnodup : (written.map Prod.fst).Nodup)
    (hmem : c.requiredField name a ∈ written) :
    c.required (Document.present written) name = some a := by
  have hlookup := Document.lookup_present hnodup hmem
  rw [required, hlookup]
  exact c.read_write a

theorem optional_present {a : Option α} (hnodup : (written.map Prod.fst).Nodup)
    (hmem : c.optionalField name a ∈ written) :
    c.optional (Document.present written) name = some a := by
  have hlookup := Document.lookup_present hnodup hmem
  unfold optional
  rw [hlookup]
  cases a with
  | none => rfl
  | some a =>
    have hread := c.read_write a
    cases hwrite : c.write a with
    | null => exact absurd hwrite (c.write_ne_null a)
    | bool | number | string | array | object =>
      rw [hwrite] at hread
      simp [hwrite, hread]

theorem flag_present {b : Bool} (hnodup : (written.map Prod.fst).Nodup)
    (hmem : flagField name b ∈ written) : flag (Document.present written) name = some b := by
  have hlookup := Document.lookup_present hnodup hmem
  rw [flag, hlookup]
  cases b <;> rfl

theorem mapM_read_write (l : List α) : (l.map c.write).mapM c.read = some l := by
  induction l with
  | nil => rfl
  | cons a l ih => simp [c.read_write, ih]

theorem items_present {l : List α} (hnodup : (written.map Prod.fst).Nodup)
    (hmem : c.itemsField name l ∈ written) :
    c.items (Document.present written) name = some l := by
  have hlookup := Document.lookup_present hnodup hmem
  unfold items
  rw [hlookup]
  cases l with
  | nil => rfl
  | cons a l => exact mapM_read_write (a :: l)

end Present

/-! Among members with other names, a field is what the members with its name say. -/

section Known

variable {names : List String} {members : List (String × Document)} (hname : name ∈ names)
  (hone : (Document.named name members).length ≤ 1)

include hname hone

theorem required_known {a : α} :
    c.required (members.filter fun member => decide (member.1 ∈ names)) name = some a ↔
      ∃ d, Document.named name members = [d] ∧ c.read d = some a := by
  rw [required, Document.lookup_known hname]
  match hnamed : Document.named name members, hone with
  | [], _ => simp
  | [d], _ => simp

theorem optional_known (hnull : c.read .null = none) {a : Option α} :
    c.optional (members.filter fun member => decide (member.1 ∈ names)) name = some a ↔
      a = none ∧ (Document.named name members = [] ∨ Document.named name members = [.null]) ∨
        ∃ x d, a = some x ∧ Document.named name members = [d] ∧ c.read d = some x := by
  rw [optional, Document.lookup_known hname]
  match hnamed : Document.named name members, hone with
  | [], _ => simp [eq_comm]
  | [d], _ =>
    cases d with
    | null => simp [hnull, eq_comm]
    | bool | number | string | array | object =>
      simp [Option.map_eq_some_iff, and_comm, @eq_comm _ a]

end Known

def list (c : Codec α) : Codec (List α) where
  write l := .array (l.map c.write)
  read
    | .array ds => ds.mapM c.read
    | _ => none
  read_write := mapM_read_write
  write_ne_null _ := nofun

/-- What a field of a document says, as the value that its reader holds. -/
def Holds (c : Codec α) (a : Option α) (d : Document) : Prop :=
  d = .null ∧ a = none ∨ ∃ x, a = some x ∧ c.read d = some x

theorem read_of_required {a : α} {d : Document} (h : c.required fields name = some a)
    (hlookup : fields.lookup name = some d) : c.read d = some a := by
  rw [required, hlookup] at h
  exact h

theorem holds_of_optional {a : Option α} {d : Document} (h : c.optional fields name = some a)
    (hlookup : fields.lookup name = some d) : c.Holds a d := by
  unfold optional at h
  rw [hlookup] at h
  split at h
  · contradiction
  · next heq =>
    cases heq
    cases h
    exact .inl ⟨rfl, rfl⟩
  · next heq =>
    cases heq
    obtain ⟨x, hx, rfl⟩ := Option.map_eq_some_iff.mp h
    exact .inr ⟨x, rfl, hx⟩

theorem forall₂_of_mapM {β : Type v} {f : β → Option α} {as : List β} {bs : List α}
    (h : as.mapM f = some bs) : List.Forall₂ (fun b a => f a = some b) bs as := by
  induction as generalizing bs with
  | nil =>
    cases h
    exact .nil
  | cons a as ih =>
    simp only [List.mapM_cons, Option.bind_eq_bind, Option.bind_eq_some_iff, Option.pure_def,
      Option.some.injEq] at h
    obtain ⟨b, hb, bs, hbs, rfl⟩ := h
    exact .cons hb (ih hbs)

theorem forall₂_of_items {l : List α} {d : Document} (h : c.items fields name = some l)
    (hlookup : fields.lookup name = some d) :
    ∃ ds, d = .array ds ∧ List.Forall₂ (fun a d => c.read d = some a) l ds := by
  unfold items at h
  rw [hlookup] at h
  split at h
  · contradiction
  · next ds heq =>
    cases heq
    exact ⟨ds, rfl, forall₂_of_mapM h⟩
  · cases h

/-! Maps: of a name that is repeated the last member counts. -/

section Map

open Std

def insertAll (entries : List (String × α)) (m : ExtTreeMap String α) : ExtTreeMap String α :=
  entries.foldl (fun m entry => m.insert entry.1 entry.2) m

theorem lookup_insertAll (entries : List (String × α)) (m : ExtTreeMap String α) (key : String) :
    (insertAll entries m)[key]? = (entries.reverse.lookup key).or m[key]? := by
  induction entries generalizing m with
  | nil => rfl
  | cons entry entries ih =>
    obtain ⟨name, a⟩ := entry
    have hrest : insertAll ((name, a) :: entries) m = insertAll entries (m.insert name a) := rfl
    rw [hrest, ih, OrderedMap.lookup_insert, List.reverse_cons, List.lookup_append, Option.or_assoc]
    congr 1
    by_cases hname : name = key
    · simp [hname]
    · have hne : (key == name) = false := beq_eq_false_iff_ne.mpr (Ne.symm hname)
      simp [hname, List.lookup_cons, hne]

theorem insertAll_toList (m : ExtTreeMap String α) : insertAll m.toList ∅ = m := by
  apply ExtTreeMap.ext_getElem?
  intro key
  rw [lookup_insertAll, ExtTreeMap.getElem?_empty, Option.or_none]
  have hnodup : (m.toList.reverse.map Prod.fst).Nodup := by
    rw [List.map_reverse, List.nodup_reverse]
    refine List.pairwise_map.mpr (ExtTreeMap.distinct_keys_toList.imp fun hne => ?_)
    exact fun heq => hne (Std.compare_eq_iff_eq.mpr heq)
  cases hkey : m[key]? with
  | some a =>
    refine Document.lookup_of_mem hnodup (List.mem_reverse.mpr ?_)
    exact ExtTreeMap.mem_toList_iff_getElem?_eq_some.mpr hkey
  | none =>
    refine List.lookup_eq_none_iff.mpr fun entry hmem => bne_iff_ne.mpr ?_
    rintro rfl
    have hsome := ExtTreeMap.mem_toList_iff_getElem?_eq_some.mp (List.mem_reverse.mp hmem)
    rw [hkey] at hsome
    cases hsome

def readEntry (c : Codec α) (member : String × Document) : Option (String × α) :=
  (c.read member.2).map (member.1, ·)

theorem mapM_readEntry (entries : List (String × α)) :
    (entries.map fun entry => (entry.1, c.write entry.2)).mapM c.readEntry = some entries := by
  induction entries with
  | nil => rfl
  | cons entry entries ih => simp [readEntry, c.read_write, ih]

def treeMap (c : Codec α) : Codec (ExtTreeMap String α) where
  write m := .object (m.toList.map fun entry => (entry.1, c.write entry.2))
  read
    | .object members => (members.mapM c.readEntry).map (insertAll · ∅)
    | _ => none
  read_write m := by simp only [mapM_readEntry, Option.map_some, insertAll_toList]
  write_ne_null _ := nofun

theorem lookup_of_forall₂ {members : List (String × Document)} {entries : List (String × α)}
    (h : List.Forall₂ (fun entry member => c.readEntry member = some entry) entries members)
    (key : String) : entries.lookup key = (members.lookup key).bind c.read := by
  induction h with
  | nil => rfl
  | @cons entry member entries members hread _ ih =>
    obtain ⟨a, ha, rfl⟩ := Option.map_eq_some_iff.mp hread
    rw [List.lookup_cons, List.lookup_cons, ih]
    split
    · exact ha.symm
    · rfl

theorem lookup_treeMap {m : ExtTreeMap String α} {members : List (String × Document)}
    (h : c.treeMap.read (.object members) = some m) (key : String) :
    m[key]? = (members.reverse.lookup key).bind c.read := by
  obtain ⟨entries, hentries, rfl⟩ := Option.map_eq_some_iff.mp h
  rw [lookup_insertAll, ExtTreeMap.getElem?_empty, Option.or_none]
  exact lookup_of_forall₂ (List.forall₂_reverse_iff.mpr (forall₂_of_mapM hentries)) key

theorem exists_treeMap {members : List (String × Document)}
    (h : ∀ member ∈ members, ∃ a, c.read member.2 = some a) :
    ∃ m, c.treeMap.read (.object members) = some m := by
  have hentries : ∃ entries, members.mapM c.readEntry = some entries := by
    induction members with
    | nil => exact ⟨[], rfl⟩
    | cons member members ih =>
      obtain ⟨a, ha⟩ := h member List.mem_cons_self
      obtain ⟨entries, hentries⟩ := ih fun other hother => h other (List.mem_cons_of_mem _ hother)
      exact ⟨(member.1, a) :: entries, by simp [readEntry, ha, hentries]⟩
  obtain ⟨entries, hentries⟩ := hentries
  exact ⟨_, Option.map_eq_some_iff.mpr ⟨entries, hentries, rfl⟩⟩

theorem read_of_treeMap {m : ExtTreeMap String α} {members : List (String × Document)}
    (h : c.treeMap.read (.object members) = some m) {member : String × Document}
    (hmem : member ∈ members) : ∃ a, c.read member.2 = some a := by
  obtain ⟨entries, hentries, -⟩ := Option.map_eq_some_iff.mp h
  have hall := forall₂_of_mapM hentries
  clear hentries h
  induction hall with
  | nil => cases hmem
  | cons hread _ ih =>
    rcases List.mem_cons.mp hmem with rfl | hmem
    · obtain ⟨a, ha, -⟩ := Option.map_eq_some_iff.mp hread
      exact ⟨a, ha⟩
    · exact ih hmem

end Map

end Codec

end Gcit.Library
