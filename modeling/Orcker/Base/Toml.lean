import Orcker.Base.Fallible
import Orcker.Base.Map
import Orcker.Base.Path

/-!
# TOML values and derived record decoders

A parsed document, and typed records read and written through it as a derived serialiser does.
`Toml.fields` opens a record and refuses keys it does not know; the fields are then read one by one.
-/

namespace Base

open List

/-- A parsed value. Floats and dates are kept as their text. -/
inductive Toml where
  | string (s : Str)
  | integer (n : Int)
  | float (text : Str)
  | boolean (b : Bool)
  | datetime (text : Str)
  | array (items : List Toml)
  | table (entries : List (Str × Toml))

mutual

/-- Two values are the same, compared by running through them. -/
def Toml.same : Toml → Toml → Bool
  | .string s, .string t => s = t
  | .integer m, .integer n => m = n
  | .float s, .float t => s = t
  | .boolean b, .boolean c => b = c
  | .datetime s, .datetime t => s = t
  | .array l, .array m => Toml.sameItems l m
  | .table l, .table m => Toml.sameEntries l m
  | _, _ => false

def Toml.sameItems : List Toml → List Toml → Bool
  | [], [] => true
  | v :: l, w :: m => v.same w && Toml.sameItems l m
  | _, _ => false

def Toml.sameEntries : List (Str × Toml) → List (Str × Toml) → Bool
  | [], [] => true
  | (k, v) :: l, (k', w) :: m => k = k' && v.same w && Toml.sameEntries l m
  | _, _ => false

end

/-- Why a value is not of the type it is read at. -/
inductive DeError where
  | invalidType
  | invalidValue
  | invalidLength
  | missingField (name : Str)
  | unknownField (name : Str)
  | unknownVariant (name : Str)
  deriving DecidableEq, Repr

/-- How a type is read from a value. -/
abbrev Decoder (α : Type) := Toml → Except DeError α

namespace Toml

/-- The entries of a table, in key order. -/
abbrev Table := List (Str × Toml)

def find (key : Str) : Table → Option Toml
  | [] => none
  | (k, v) :: t => if k = key then some v else find key t

def insert (key : Str) (v : Toml) : Table → Table
  | [] => [(key, v)]
  | (k, w) :: t =>
    match compare key k with
    | .lt => (key, v) :: (k, w) :: t
    | .eq => (key, v) :: t
    | .gt => (k, w) :: insert key v t

def erase (key : Str) (t : Table) : Table := t.filter (·.1 ≠ key)

theorem find_insert (key key' : Str) (v : Toml) (t : Table) :
    find key' (insert key v t) = if key = key' then some v else find key' t := by
  induction t with
  | nil => simp [insert, find]
  | cons e t ih =>
    obtain ⟨k, w⟩ := e
    unfold insert
    split
    · rfl
    · -- The old entry under the same key is gone, and no lookup misses it.
      rename_i heq
      obtain rfl := Std.compare_eq_iff_eq.1 heq
      simp only [find]
      split <;> rfl
    · rename_i hgt
      have hne : key ≠ k := by
        rintro rfl
        rw [Std.compare_self] at hgt
        cases hgt
      rw [find, ih, find]
      split_ifs with h1 h2
      · exact absurd (h2.trans h1.symm) hne
      all_goals rfl

theorem mem_of_mem_insert {key : Str} {v : Toml} {t : Table} {e : Str × Toml}
    (h : e ∈ insert key v t) : e = (key, v) ∨ e ∈ t := by
  induction t with
  | nil => simpa [insert] using h
  | cons e' t ih =>
    obtain ⟨k, w⟩ := e'
    unfold insert at h
    split at h
    · exact mem_cons.1 h
    · exact (mem_cons.1 h).imp id (mem_cons_of_mem _)
    · rcases mem_cons.1 h with rfl | h
      · exact .inr mem_cons_self
      · exact (ih h).imp id (mem_cons_of_mem _)

end Toml

namespace Decoder

open Toml

variable {α β : Type}

def string : Decoder Str
  | .string s => .ok s
  | _ => .error .invalidType

def boolean : Decoder Bool
  | .boolean b => .ok b
  | _ => .error .invalidType

/-- An integer from zero to `max`. -/
def uint (max : Nat) : Decoder Nat
  | .integer n => if 0 ≤ n ∧ n ≤ max then .ok n.toNat else .error .invalidValue
  | _ => .error .invalidType

def u16 : Decoder UInt16 := fun v => UInt16.ofNat <$> uint 65535 v

def u32 : Decoder Nat := uint 4294967295

def path : Decoder Path := fun v => Path.ofStr <$> string v

def any : Decoder Toml := .ok

/-- An array, item by item. -/
def vec (r : Decoder α) : Decoder (List α)
  | .array items => items.mapM r
  | _ => .error .invalidType

def set : Decoder StrSet := fun v => StrSet.collect <$> vec string v

/-- A table, entry by entry. -/
def map (r : Decoder β) : Decoder (StrMap β)
  | .table t => OrdMap.collect <$> t.mapM fun e => (fun b => (e.1, b)) <$> r e.2
  | _ => .error .invalidType

/-- One of a few named constants. A table with the name as its only key and
nothing under it stands for the constant as well. -/
def unitVariant (variants : List (Str × α)) : Decoder α := fun v =>
  let name? : Except DeError Str :=
    match v with
    | .string s => .ok s
    | .table [(s, .table [])] => .ok s
    | .table [(s, .array [])] => .ok s
    | _ => .error .invalidType
  name? >>= fun name =>
    match variants.lookup name with
    | some a => .ok a
    | none => .error (.unknownVariant name)

end Decoder

variable {fs : List (Str × Option Toml)}

namespace Toml

variable {α β γ : Type}

/-- Open a record that knows the fields `names` only. A record may also be given
as the array of its first fields, in declaration order. -/
def fields (names : List Str) : Decoder Table
  | .table t =>
    match t.find? fun e => e.1 ∉ names with
    | some e => .error (.unknownField e.1)
    | none => .ok t
  | .array items => if names.length < items.length then .error .invalidLength else .ok (names.zip items)
  | _ => .error .invalidType

def readRequired (name : Str) (r : Decoder α) : Option Toml → Except DeError α
  | none => .error (.missingField name)
  | some v => r v

def readOptional (r : Decoder α) : Option Toml → Except DeError (Option α)
  | none => .ok none
  | some v => some <$> r v

def readDefaulted (r : Decoder α) (default : α) : Option Toml → Except DeError α
  | none => .ok default
  | some v => r v

/-- A field that has to be there. -/
def required (t : Table) (name : Str) (r : Decoder α) : Except DeError α :=
  readRequired name r (find name t)

/-- A field that may be missing. -/
def optional (t : Table) (name : Str) (r : Decoder α) : Except DeError (Option α) :=
  readOptional r (find name t)

/-- A field with a value of its own when it is missing. -/
def defaulted (t : Table) (name : Str) (r : Decoder α) (default : α) : Except DeError α :=
  readDefaulted r default (find name t)

def recordEntries : List (Str × Option Toml) → Table
  | [] => []
  | (name, some v) :: fs => insert name v (recordEntries fs)
  | (_, none) :: fs => recordEntries fs

/-- A record as written, the fields that are skipped left out. -/
def ofRecord (fs : List (Str × Option Toml)) : Toml := .table (recordEntries fs)

def skipIf (skip : Bool) (v : Toml) : Option Toml := if skip then none else some v

def ofU16 (n : UInt16) : Toml := .integer n.toNat

def ofMap (w : β → Toml) (m : StrMap β) : Toml := .table (m.toList.map fun e => (e.1, w e.2))

def ofSet (s : StrSet) : Toml := .array (s.toList.map .string)

@[simp] theorem find_recordEntries_nil (key : Str) : find key (recordEntries []) = none := rfl

/-- A field is found in it as it was written. -/
@[simp] theorem find_recordEntries_cons (key name : Str) (o : Option Toml)
    (fs : List (Str × Option Toml)) :
    find key (recordEntries ((name, o) :: fs)) =
      if name = key then o.or (find key (recordEntries fs)) else find key (recordEntries fs) := by
  cases o with
  | none => simp [recordEntries]
  | some v => simp [recordEntries, find_insert]

theorem mem_keys_of_mem_recordEntries {e : Str × Toml} (h : e ∈ recordEntries fs) :
    e.1 ∈ fs.map Prod.fst := by
  induction fs with
  | nil => cases h
  | cons f fs ih =>
    obtain ⟨name, o⟩ := f
    cases o with
    | none => exact mem_cons_of_mem _ (ih h)
    | some v =>
      rcases mem_of_mem_insert h with rfl | h
      · exact mem_cons_self
      · exact mem_cons_of_mem _ (ih h)

/-- A written record can be opened. -/
theorem fields_ofRecord {names : List Str} (h : fs.map Prod.fst ⊆ names) :
    fields names (ofRecord fs) = .ok (recordEntries fs) := by
  have hnone : (recordEntries fs).find? (fun e => decide (e.1 ∉ names)) = none := by
    rw [find?_eq_none]
    intro e he
    simpa using h (mem_keys_of_mem_recordEntries he)
  show (match (recordEntries fs).find? (fun e => decide (e.1 ∉ names)) with
    | some e => Except.error (DeError.unknownField e.1)
    | none => .ok (recordEntries fs)) = _
  rw [hnone]

@[simp] theorem string_string (s : Str) : Decoder.string (.string s) = .ok s := rfl

@[simp] theorem boolean_boolean (b : Bool) : Decoder.boolean (.boolean b) = .ok b := rfl

@[simp] theorem u16_ofU16 (n : UInt16) : Decoder.u16 (ofU16 n) = .ok n := by
  have h : n.toNat < 65536 := n.toNat_lt
  show UInt16.ofNat <$> (if (0 : Int) ≤ n.toNat ∧ (n.toNat : Int) ≤ (65535 : Nat) then
    Except.ok ((n.toNat : Int).toNat) else _) = _
  rw [if_pos ⟨by omega, by omega⟩]
  simp

@[simp] theorem path_ofStr (s : Str) : Decoder.path (.string s) = .ok (Path.ofStr s) := rfl

variable {g : β → α} {r : Decoder α} {w : β → Toml} {m : StrMap β}

theorem vec_array {l : List β} (h : ∀ b ∈ l, r (w b) = .ok (g b)) :
    Decoder.vec r (.array (l.map w)) = .ok (l.map g) := by
  show (l.map w).mapM r = _
  rw [mapM_map]
  exact mapM_eq_ok h

@[simp] theorem vec_string (l : List Str) :
    Decoder.vec Decoder.string (.array (l.map .string)) = .ok l := by
  rw [vec_array (r := Decoder.string) (w := .string) (g := id) fun s _ => rfl, map_id]

@[simp] theorem set_ofSet (s : StrSet) : Decoder.set (ofSet s) = .ok s := by
  show StrSet.collect <$> Decoder.vec Decoder.string (.array (s.toList.map .string)) = _
  rw [vec_string, map_ok, StrSet.collect_toList]

theorem map_ofMap (h : ∀ (k : Str) (b : β), m[k]? = some b → r (w b) = .ok (g b)) :
    Decoder.map r (ofMap w m) = .ok (m.map fun _ b => g b) := by
  show OrdMap.collect <$> mapM _ (m.toList.map fun e => (e.1, w e.2)) = _
  rw [mapM_map, mapM_eq_ok (g := fun e : Str × β => (e.1, g e.2)), map_ok,
    OrdMap.collect_map_toList m fun _ b => g b]
  intro e he
  simp [h e.1 e.2 (OrdMap.mem_toList.1 he)]

theorem map_ofMap_self {r : Decoder β} (h : ∀ b, r (w b) = .ok b) (m : StrMap β) :
    Decoder.map r (ofMap w m) = .ok m := by
  rw [map_ofMap (g := id) fun _ b _ => h b]
  refine congrArg Except.ok (Std.ExtTreeMap.ext_getElem? fun k => ?_)
  simp

@[simp] theorem readRequired_some (name : Str) (r : Decoder α) (v : Toml) :
    readRequired name r (some v) = r v := rfl

@[simp] theorem readDefaulted_some (r : Decoder α) (default : α) (v : Toml) :
    readDefaulted r default (some v) = r v := rfl

@[simp] theorem readOptional_some (r : Decoder α) (v : Toml) :
    readOptional r (some v) = some <$> r v := rfl

theorem readOptional_map (h : ∀ b, r (w b) = .ok (g b)) (o : Option β) :
    readOptional r (o.map w) = .ok (o.map g) := by
  cases o with
  | none => rfl
  | some b => simp [readOptional, h]

theorem readOptional_map_self {w : α → Toml} (h : ∀ a, r (w a) = .ok a) (o : Option α) :
    readOptional r (o.map w) = .ok o := by
  rw [readOptional_map (g := id) h, Option.map_id, id]

@[simp] theorem readOptional_string (o : Option Str) :
    readOptional Decoder.string (o.map .string) = .ok o := readOptional_map_self string_string o

@[simp] theorem readOptional_boolean (o : Option Bool) :
    readOptional Decoder.boolean (o.map .boolean) = .ok o := readOptional_map_self boolean_boolean o

@[simp] theorem readOptional_u16 (o : Option UInt16) :
    readOptional Decoder.u16 (o.map ofU16) = .ok o := readOptional_map_self u16_ofU16 o

theorem readDefaulted_skipIf {v : Toml} {skip : Bool} {default a : α}
    (hskip : skip = true → default = a) (hread : skip = false → r v = .ok a) :
    readDefaulted r default (skipIf skip v) = .ok a := by
  cases skip with
  | true => exact congrArg Except.ok (hskip rfl)
  | false => exact hread rfl

theorem readDefaulted_vec_skipIf (r : Decoder α) (items : List Toml) :
    readDefaulted (Decoder.vec r) [] (skipIf items.isEmpty (.array items)) = items.mapM r := by
  cases items with
  | nil | cons => rfl

theorem readDefaulted_map_skipIf (h : ∀ (k : Str) (b : β), m[k]? = some b → r (w b) = .ok (g b)) :
    readDefaulted (Decoder.map r) ∅ (skipIf m.isEmpty (ofMap w m)) =
      .ok (m.map fun _ b => g b) := by
  refine readDefaulted_skipIf (fun hempty => ?_) fun _ => map_ofMap h
  rw [Std.ExtTreeMap.isEmpty_iff.1 hempty]
  exact (Std.ExtTreeMap.map_eq_empty_iff.2 rfl).symm

theorem readDefaulted_map_skipIf_self {r : Decoder β} (h : ∀ b, r (w b) = .ok b) (m : StrMap β) :
    readDefaulted (Decoder.map r) ∅ (skipIf m.isEmpty (ofMap w m)) = .ok m :=
  readDefaulted_skipIf (fun hempty => (Std.ExtTreeMap.isEmpty_iff.1 hempty).symm) fun _ =>
    map_ofMap_self h m

end Toml

end Base
