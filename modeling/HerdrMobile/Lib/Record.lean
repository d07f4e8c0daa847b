import Mathlib.Algebra.Ring.Nat
import HerdrMobile.Lib.Json

/-!
# Codecs of records

Encoders and decoders of JSON values that carry their law: what is encoded is decoded
to the same value, and it survives being written and read again. A record is put
together from its fields, each of which may be required, left out, null, or have a
default. Decoding looks at the keys of the record and at no others, and a missing field
that need not be there is read as its default.
-/

namespace HerdrMobile.Lib

open Strings

variable {F : Type} {reread : F → F} {α β σ : Type}

structure Codec (reread : F → F) (α : Type) where
  enc : α → Json F
  dec : Json F → Option α
  /-- Levels of nesting, and the values for which the laws are claimed. -/
  depth : Nat
  ok : α → Prop
  dec_enc : ∀ a, ok a → dec (enc a) = some a
  kept : ∀ a, ok a → (enc a).Kept reread depth

namespace Codec

def text : Codec reread Text where
  enc := .str
  dec
    | .str t => some t
    | _ => none
  depth := 0
  ok _ := True
  dec_enc _ _ := rfl
  kept _ _ := rfl

def bool : Codec reread Bool where
  enc := .bool
  dec
    | .bool b => some b
    | _ => none
  depth := 0
  ok _ := True
  dec_enc _ _ := rfl
  kept _ _ := rfl

def u64 : Codec reread UInt64 where
  enc := .posInt
  dec
    | .posInt n => some n
    | _ => none
  depth := 0
  ok _ := True
  dec_enc _ _ := rfl
  kept _ _ := rfl

/-- A value of another type that some of the values of `α` stand for. -/
def via (c : Codec reread α) (put : β → α) (get : α → Option β) : Codec reread β where
  enc b := c.enc (put b)
  dec j := (c.dec j).bind get
  depth := c.depth
  ok b := c.ok (put b) ∧ get (put b) = some b
  dec_enc b hb := by rw [c.dec_enc _ hb.1, Option.bind_some, hb.2]
  kept b hb := c.kept _ hb.1

def u32 : Codec reread UInt32 :=
  u64.via UInt32.toUInt64 fun n => if n.toNat < 2 ^ 32 then some n.toUInt32 else none

/-- Any value that survives being written and read again with `depth` levels left. -/
def value (reread : F → F) (depth : Nat) : Codec reread (Json F) where
  enc := id
  dec := some
  depth := depth
  ok j := j.Kept reread depth
  dec_enc _ _ := rfl
  kept _ h := h

def list (c : Codec reread α) : Codec reread (List α) where
  enc xs := .arr (xs.map c.enc)
  dec
    | .arr items => items.mapM c.dec
    | _ => none
  depth := c.depth + 1
  ok xs := ∀ x ∈ xs, c.ok x
  dec_enc xs hxs := by
    induction xs with
    | nil => rfl
    | cons x rest ih =>
      have hrest := ih fun y hy => hxs y (List.mem_cons_of_mem x hy)
      simp only [List.map_cons, List.mapM_cons, c.dec_enc x (hxs x List.mem_cons_self)] at hrest ⊢
      rw [hrest]
      rfl
  kept xs hxs := by
    refine Json.kept_arr fun j hj => ?_
    obtain ⟨x, hx, rfl⟩ := List.mem_map.mp hj
    exact c.kept x (hxs x hx)

/-- The names of an enumeration. -/
def named (name : α → Text) (all : List α) : Codec reread α :=
  text.via name fun t => all.find? fun a => name a = t

end Codec

namespace Codec

/-- Every value is encoded, and none as null. -/
class Total (c : Codec reread α) : Prop where
  ok : ∀ a, c.ok a
  enc_ne_null : ∀ a, c.enc a ≠ .null

instance : (text : Codec reread Text).Total := ⟨fun _ => trivial, nofun⟩

instance : (bool : Codec reread Bool).Total := ⟨fun _ => trivial, nofun⟩

instance : (u64 : Codec reread UInt64).Total := ⟨fun _ => trivial, nofun⟩

theorem total_via {c : Codec reread α} (hc : c.Total) {put : β → α} {get : α → Option β}
    (h : ∀ b, get (put b) = some b) : (c.via put get).Total :=
  ⟨fun b => ⟨hc.ok (put b), h b⟩, fun b => hc.enc_ne_null (put b)⟩

instance : (u32 : Codec reread UInt32).Total := total_via inferInstance fun n => by
  have hlt : n.toUInt64.toNat < 2 ^ 32 := by
    rw [UInt32.toNat_toUInt64]
    exact n.toNat_lt
  rw [if_pos hlt, UInt32.toUInt32_toUInt64]

/-- A value is found by its name among values with names of their own. -/
theorem find_name {name : α → Text} {all : List α} (distinct : (all.map name).Nodup) {a : α}
    (ha : a ∈ all) : all.find? (fun b => name b = name a) = some a := by
  induction all with
  | nil => cases ha
  | cons x rest ih =>
    obtain ⟨hx, hrest⟩ := List.nodup_cons.mp distinct
    rcases List.mem_cons.mp ha with rfl | ha
    · exact List.find?_cons_of_pos (decide_eq_true rfl)
    · have hne : name x ≠ name a := fun h => hx (h ▸ List.mem_map_of_mem ha)
      rw [List.find?_cons_of_neg (by simpa using hne)]
      exact ih hrest ha

theorem total_named {name : α → Text} {all : List α} (distinct : (all.map name).Nodup)
    (complete : ∀ a, a ∈ all) : (named name all : Codec reread α).Total :=
  total_via inferInstance fun a => find_name distinct (complete a)

instance {c : Codec reread α} [hc : c.Total] : c.list.Total := ⟨fun _ x _ => hc.ok x, nofun⟩

end Codec

/-- How one field is written and read; no value is a field that is not there. A field that
is left out for some value is left out for the value that is read without it. -/
structure Field (reread : F → F) (α : Type) where
  write : α → Option (Json F)
  read : Option (Json F) → Option α
  depth : Nat
  ok : α → Prop
  read_write : ∀ a, ok a → read (write a) = some a
  kept : ∀ a, ok a → ∀ j ∈ write a, j.Kept reread depth
  left_out : ∀ a, write a = none → ∃ d, read none = some d ∧ write d = none

namespace Field

def required (c : Codec reread α) : Field reread α where
  write a := some (c.enc a)
  read j := j.bind c.dec
  depth := c.depth
  ok := c.ok
  read_write := c.dec_enc
  kept a ha _ hj := Option.some.inj hj ▸ c.kept a ha
  left_out _ h := nomatch h

/-- Null and a missing field are both no value. -/
def readOption (c : Codec reread α) : Option (Json F) → Option (Option α)
  | none => some none
  | some .null => some none
  | some j => (c.dec j).map some

theorem readOption_enc (c : Codec reread α) {a : α} (ha : c.ok a) (hn : c.enc a ≠ .null) :
    readOption c (some (c.enc a)) = some (some a) := by
  have hdec := c.dec_enc a ha
  rw [readOption]
  · rw [hdec]
    rfl
  · exact fun h => hn h

/-- A value that is left out where there is none. -/
def skipped (c : Codec reread α) : Field reread (Option α) where
  write a := a.map c.enc
  read := readOption c
  depth := c.depth
  ok a := ∀ x ∈ a, c.ok x ∧ c.enc x ≠ .null
  read_write
    | none, _ => rfl
    | some x, h => readOption_enc c (h x rfl).1 (h x rfl).2
  kept a ha j hj := by
    obtain ⟨x, hx, rfl⟩ := Option.map_eq_some_iff.mp hj
    exact c.kept x (ha x hx).1
  left_out _ _ := ⟨none, rfl, rfl⟩

/-- A value that is written as null where there is none. -/
def nullable (c : Codec reread α) : Field reread (Option α) where
  write a := some ((a.map c.enc).getD .null)
  read := readOption c
  depth := c.depth
  ok a := ∀ x ∈ a, c.ok x ∧ c.enc x ≠ .null
  read_write
    | none, _ => rfl
    | some x, h => readOption_enc c (h x rfl).1 (h x rfl).2
  kept a ha j hj := by
    obtain rfl := Option.some.inj hj
    cases a with
    | none => simp [Json.Kept, Json.through]
    | some x => exact c.kept x (ha x rfl).1
  left_out _ h := nomatch h

/-- A value that is always written and may be missing. -/
def defaulted (d : α) (c : Codec reread α) : Field reread α where
  write a := some (c.enc a)
  read
    | none => some d
    | some j => c.dec j
  depth := c.depth
  ok := c.ok
  read_write := c.dec_enc
  kept a ha _ hj := Option.some.inj hj ▸ c.kept a ha
  left_out _ h := nomatch h

/-- A value that is left out where it is the default. -/
def omitted [DecidableEq α] (d : α) (c : Codec reread α) : Field reread α where
  write a := if a = d then none else some (c.enc a)
  read
    | none => some d
    | some j => c.dec j
  depth := c.depth
  ok := c.ok
  read_write a ha := by
    by_cases h : a = d
    · rw [if_pos h, h]
    · rw [if_neg h]
      exact c.dec_enc a ha
  kept a ha j hj := by
    by_cases h : a = d
    · rw [if_pos h] at hj
      cases hj
    · rw [if_neg h] at hj
      exact Option.some.inj hj ▸ c.kept a ha
  left_out _ _ := ⟨d, rfl, if_pos rfl⟩

class Total (f : Field reread α) : Prop where
  ok : ∀ a, f.ok a

section Total

variable {c : Codec reread α} [hc : c.Total]

instance : (required c).Total := ⟨hc.ok⟩

instance : (skipped c).Total := ⟨fun _ x _ => ⟨hc.ok x, hc.enc_ne_null x⟩⟩

instance : (nullable c).Total := ⟨fun _ x _ => ⟨hc.ok x, hc.enc_ne_null x⟩⟩

instance {d : α} : (defaulted d c).Total := ⟨hc.ok⟩

instance [DecidableEq α] {d : α} : (omitted d c).Total := ⟨hc.ok⟩

end Total

end Field

/-- A lookup that misses one key. -/
def without (key : Text) (look : Text → Option (Json F)) (k : Text) : Option (Json F) :=
  if k = key then none else look k

/-- The fields of a record, as the tuple of their values. `optional` lists the keys that
need not be there, each with what is written for the value read without it. -/
structure Fields (reread : F → F) (α : Type) where
  keys : List Text
  enc : α → Json.Fields F
  dec : (Text → Option (Json F)) → Option α
  optional : List (Text × Option (Json F))
  depth : Nat
  ok : α → Prop
  enc_keys : ∀ a k, k ∉ keys → (enc a).lookup k = none
  dec_congr : ∀ look look' : Text → Option (Json F),
    (∀ k ∈ keys, look k = look' k) → dec look = dec look'
  dec_enc : ∀ a, ok a → dec (fun k => (enc a).lookup k) = some a
  kept : ∀ a, ok a → ∀ kv ∈ enc a, kv.2.Kept reread depth
  optional_keys : ∀ m ∈ optional, m.1 ∈ keys
  dec_without : ∀ a, ok a → ∀ m ∈ optional,
    ∃ b, dec (without m.1 fun k => (enc a).lookup k) = some b ∧
      ∀ k, (enc b).lookup k = if k = m.1 then m.2 else (enc a).lookup k
  left_out : ∀ a, ∀ k ∈ keys, (enc a).lookup k = none → (k, none) ∈ optional

/-- What is written for one field, before the rest. -/
def entry (key : Text) : Option (Json F) → Json.Fields F → Json.Fields F
  | none, rest => rest
  | some j, rest => (key, j) :: rest

theorem lookup_entry (key k : Text) (w : Option (Json F)) {rest : Json.Fields F}
    (h : rest.lookup key = none) :
    (entry key w rest).lookup k = if k = key then w else rest.lookup k := by
  cases w with
  | none =>
    by_cases hk : k = key
    · rw [if_pos hk, hk]
      exact h
    · rw [if_neg hk]
      rfl
  | some j => exact Json.lookup_cons_ite k key j rest

theorem mem_entry {key : Text} {w : Option (Json F)} {rest : Json.Fields F} {kv : Text × Json F}
    (h : kv ∈ entry key w rest) : w = some kv.2 ∨ kv ∈ rest := by
  cases w with
  | none => exact .inr h
  | some j =>
    rcases List.mem_cons.mp h with rfl | h
    · exact .inl rfl
    · exact .inr h

namespace Fields

def nil : Fields reread Unit where
  keys := []
  enc _ := []
  dec _ := some ()
  optional := []
  depth := 0
  ok _ := True
  enc_keys _ _ _ := rfl
  dec_congr _ _ _ := rfl
  dec_enc _ _ := rfl
  kept _ _ _ h := nomatch h
  optional_keys _ h := nomatch h
  dec_without _ _ _ h := nomatch h
  left_out _ _ h := nomatch h

/-- The key of a field that may be missing, with what is written for its default. -/
def absent (key : Text) (f : Field reread α) : List (Text × Option (Json F)) :=
  ((f.read none).map fun d => (key, f.write d)).toList

theorem mem_absent {key : Text} {f : Field reread α} {m : Text × Option (Json F)}
    (h : m ∈ absent key f) : ∃ d, f.read none = some d ∧ m = (key, f.write d) := by
  obtain ⟨d, hd, rfl⟩ := Option.map_eq_some_iff.mp (Option.mem_toList.mp h)
  exact ⟨d, hd, rfl⟩

theorem absent_of_left_out {key : Text} {f : Field reread α} {a : α} (h : f.write a = none) :
    (key, none) ∈ absent key f := by
  obtain ⟨d, hread, hwrite⟩ := f.left_out a h
  exact Option.mem_toList.mpr (Option.map_eq_some_iff.mpr ⟨d, hread, by rw [hwrite]⟩)

section Cons

variable (key : Text) (f : Field reread α) (r : Fields reread β)

def consEnc (a : α × β) : Json.Fields F := entry key (f.write a.1) (r.enc a.2)

def consDec (look : Text → Option (Json F)) : Option (α × β) :=
  (f.read (look key)).bind fun x => (r.dec look).map fun y => (x, y)

variable {key f r}

theorem ne_key (fresh : key ∉ r.keys) {k : Text} (hk : k ∈ r.keys) : k ≠ key :=
  fun h => fresh (h ▸ hk)

theorem lookup_consEnc (fresh : key ∉ r.keys) (a : α × β) (k : Text) :
    (consEnc key f r a).lookup k = if k = key then f.write a.1 else (r.enc a.2).lookup k :=
  lookup_entry key k _ (r.enc_keys a.2 key fresh)

/-- The other fields are looked up as if this one were not there. -/
theorem lookup_rest (fresh : key ∉ r.keys) (a : α × β) {k : Text} (hk : k ∈ r.keys) :
    (consEnc key f r a).lookup k = (r.enc a.2).lookup k := by
  rw [lookup_consEnc fresh, if_neg (ne_key fresh hk)]

theorem consDec_consEnc (fresh : key ∉ r.keys) {a : α × β} (ha : f.ok a.1 ∧ r.ok a.2) :
    consDec key f r (fun k => (consEnc key f r a).lookup k) = some a := by
  have hrest : r.dec (fun k => (consEnc key f r a).lookup k) = some a.2 := by
    rw [r.dec_congr _ _ fun k hk => lookup_rest fresh a hk]
    exact r.dec_enc _ ha.2
  rw [consDec, lookup_consEnc fresh, if_pos rfl, f.read_write _ ha.1, hrest]
  rfl

/-- Without its first field a record is read with the default of that field. -/
theorem consDec_without_key (fresh : key ∉ r.keys) {a : α × β} (ha : f.ok a.1 ∧ r.ok a.2) {d : α}
    (hd : f.read none = some d) :
    consDec key f r (without key fun k => (consEnc key f r a).lookup k) = some (d, a.2) := by
  have hrest : r.dec (without key fun k => (consEnc key f r a).lookup k) = some a.2 := by
    rw [← r.dec_enc _ ha.2]
    refine r.dec_congr _ _ fun k hk => ?_
    rw [without, if_neg (ne_key fresh hk), lookup_rest fresh a hk]
  rw [consDec, without, if_pos rfl, hd, hrest]
  rfl

theorem consDec_without_rest (fresh : key ∉ r.keys) {a : α × β} (ha : f.ok a.1 ∧ r.ok a.2)
    {key' : Text} (hkey : key' ∈ r.keys) {b : β}
    (hb : r.dec (without key' fun k => (r.enc a.2).lookup k) = some b) :
    consDec key f r (without key' fun k => (consEnc key f r a).lookup k) = some (a.1, b) := by
  have hrest : r.dec (without key' fun k => (consEnc key f r a).lookup k) = some b := by
    rw [← hb]
    refine r.dec_congr _ _ fun k hk => ?_
    rw [without, without, lookup_rest fresh a hk]
  rw [consDec, without, if_neg (ne_key fresh hkey).symm, lookup_consEnc fresh, if_pos rfl,
    f.read_write _ ha.1, hrest]
  rfl

theorem cons_without (fresh : key ∉ r.keys) {a : α × β} (ha : f.ok a.1 ∧ r.ok a.2)
    {m : Text × Option (Json F)} (hm : m ∈ absent key f ++ r.optional) :
    ∃ b, consDec key f r (without m.1 fun k => (consEnc key f r a).lookup k) = some b ∧
      ∀ k, (consEnc key f r b).lookup k =
        if k = m.1 then m.2 else (consEnc key f r a).lookup k := by
  rcases List.mem_append.mp hm with hm | hm
  · obtain ⟨d, hd, rfl⟩ := mem_absent hm
    refine ⟨(d, a.2), consDec_without_key fresh ha hd, fun k => ?_⟩
    rw [lookup_consEnc fresh, lookup_consEnc fresh]
    split <;> rfl
  · have hkey := r.optional_keys m hm
    obtain ⟨b, hb, hlook⟩ := r.dec_without _ ha.2 m hm
    refine ⟨(a.1, b), consDec_without_rest fresh ha hkey hb, fun k => ?_⟩
    rw [lookup_consEnc fresh, lookup_consEnc fresh, hlook]
    by_cases hk : k = key
    · rw [if_pos hk, if_pos hk, if_neg fun h => ne_key fresh hkey (h.symm.trans hk)]
    · rw [if_neg hk, if_neg hk]

theorem cons_left_out (fresh : key ∉ r.keys) {a : α × β} {k : Text} (hk : k ∈ key :: r.keys)
    (hnone : (consEnc key f r a).lookup k = none) : (k, none) ∈ absent key f ++ r.optional := by
  rw [lookup_consEnc fresh] at hnone
  rcases List.mem_cons.mp hk with rfl | hk
  · rw [if_pos rfl] at hnone
    exact List.mem_append_left _ (absent_of_left_out hnone)
  · rw [if_neg (ne_key fresh hk)] at hnone
    exact List.mem_append_right _ (r.left_out _ k hk hnone)

end Cons

theorem not_mem_of_elem {key : Text} {keys : List Text} (h : keys.elem key = false) :
    key ∉ keys := fun hmem => Bool.false_ne_true (h.symm.trans (List.elem_eq_true_of_mem hmem))

/-- One more field, written before the others. -/
def cons (key : Text) (f : Field reread α) (r : Fields reread β)
    (fresh : key ∉ r.keys := by exact Fields.not_mem_of_elem rfl) : Fields reread (α × β) where
  keys := key :: r.keys
  enc := consEnc key f r
  dec := consDec key f r
  optional := absent key f ++ r.optional
  depth := max f.depth r.depth
  ok a := f.ok a.1 ∧ r.ok a.2
  enc_keys a k hk := by
    obtain ⟨hne, hrest⟩ := not_or.mp (List.mem_cons.not.mp hk)
    rw [lookup_consEnc fresh, if_neg hne]
    exact r.enc_keys a.2 k hrest
  dec_congr look look' h := by
    rw [consDec, consDec, h key List.mem_cons_self,
      r.dec_congr look look' fun k hk => h k (List.mem_cons_of_mem key hk)]
  dec_enc _ ha := consDec_consEnc fresh ha
  kept a ha kv hkv := by
    rcases mem_entry hkv with hw | hrest
    · exact (f.kept _ ha.1 _ hw).mono (Nat.le_max_left ..)
    · exact (r.kept _ ha.2 _ hrest).mono (Nat.le_max_right ..)
  optional_keys m hm := by
    rcases List.mem_append.mp hm with hm | hm
    · obtain ⟨d, -, rfl⟩ := mem_absent hm
      exact List.mem_cons_self
    · exact List.mem_cons_of_mem key (r.optional_keys m hm)
  dec_without _ ha _ hm := cons_without fresh ha hm
  left_out _ _ hk hnone := cons_left_out fresh hk hnone

class Total (r : Fields reread α) : Prop where
  ok : ∀ a, r.ok a

instance : (nil : Fields reread Unit).Total := ⟨fun _ => trivial⟩

instance {key : Text} {f : Field reread α} {r : Fields reread β} [hf : f.Total] [hr : r.Total]
    {fresh : key ∉ r.keys} : (cons key f r fresh).Total :=
  ⟨fun a => ⟨hf.ok a.1, hr.ok a.2⟩⟩

end Fields

/-- A record with its fields. -/
structure Record (reread : F → F) (σ : Type) where
  {α : Type}
  fields : Fields reread α
  split : σ → α
  join : α → σ
  join_split : ∀ s, join (split s) = s := by intro s; rfl
  split_join : ∀ a, split (join a) = a := by intro a; rfl

namespace Record

variable (r : Record reread σ)

/-- What is written for a record, in the order of its fields. -/
def written (s : σ) : Json.Fields F := r.fields.enc (r.split s)

def read (look : Text → Option (Json F)) : Option σ := (r.fields.dec look).map r.join

def ok (s : σ) : Prop := r.fields.ok (r.split s)

theorem read_congr {look look' : Text → Option (Json F)}
    (h : ∀ k ∈ r.fields.keys, look k = look' k) : r.read look = r.read look' := by
  rw [read, read, r.fields.dec_congr look look' h]

theorem read_written {s : σ} (hs : r.ok s) : r.read (fun k => (r.written s).lookup k) = some s := by
  have hdec := r.fields.dec_enc _ hs
  rw [read, written, hdec, Option.map_some, r.join_split]

/-- The object of a record, and its codec. -/
def codec : Codec reread σ where
  enc s := Json.object (r.written s)
  dec
    | .obj fields => r.read fun k => fields.lookup k
    | _ => none
  depth := r.fields.depth + 1
  ok := r.ok
  dec_enc s hs := by
    show r.read (fun k => (Json.arrange (r.written s)).lookup k) = some s
    simp only [Json.lookup_arrange]
    exact r.read_written hs
  kept s hs := Json.kept_object (r.fields.kept _ hs)

/-- A field that is not one of the record's is ignored. -/
theorem dec_insertField {key : Text} (hkey : key ∉ r.fields.keys) (value : Json F)
    (fields : Json.Fields F) :
    r.codec.dec (.obj (Json.insertField key value fields)) = r.codec.dec (.obj fields) :=
  r.read_congr fun k hk => by
    rw [Json.lookup_insertField, if_neg]
    rintro rfl
    exact hkey hk

/-- Without a field that need not be there, what is read is the record with that field as
its default; the other fields are as they were. -/
theorem dec_eraseField {s : σ} (hs : r.ok s) {m : Text × Option (Json F)}
    (hm : m ∈ r.fields.optional) :
    ∃ t, r.codec.dec (.obj (Json.eraseField m.1 (Json.arrange (r.written s)))) = some t ∧
      ∀ k, (r.written t).lookup k = if k = m.1 then m.2 else (r.written s).lookup k := by
  obtain ⟨b, hb, hlook⟩ := r.fields.dec_without _ hs m hm
  refine ⟨r.join b, ?_, fun k => ?_⟩
  · show r.read (fun k => (Json.eraseField m.1 (Json.arrange (r.written s))).lookup k) = _
    simp only [Json.lookup_eraseField, Json.lookup_arrange]
    rw [read]
    exact congrArg (Option.map r.join) hb
  · rw [written, r.split_join]
    exact hlook k

/-- A reader of the record ignores what it does not know. Where it is without a field that
need not be there it reads the record with that field as its default: the value that is
left out, for a field that is left out for some value. -/
structure Lenient : Prop where
  unknown : ∀ key ∉ r.fields.keys, ∀ value fields,
    r.codec.dec (.obj (Json.insertField key value fields)) = r.codec.dec (.obj fields)
  defaulted : ∀ s, r.ok s → ∀ m ∈ r.fields.optional,
    ∃ t, r.codec.dec (.obj (Json.eraseField m.1 (Json.arrange (r.written s)))) = some t ∧
      ∀ k, (r.written t).lookup k = if k = m.1 then m.2 else (r.written s).lookup k
  left_out : ∀ key ∈ r.fields.keys, (∃ s, (r.written s).lookup key = none) → ∀ s, r.ok s →
    ∃ t, r.codec.dec (.obj (Json.eraseField key (Json.arrange (r.written s)))) = some t ∧
      ∀ k, (r.written t).lookup k = if k = key then none else (r.written s).lookup k

theorem lenient : r.Lenient where
  unknown _ hkey := r.dec_insertField hkey
  defaulted _ hs _ hm := r.dec_eraseField hs hm
  left_out key hkey hout s hs := by
    obtain ⟨s', hs'⟩ := hout
    exact r.dec_eraseField hs (r.fields.left_out _ key hkey hs')

class Total (r : Record reread σ) : Prop where
  ok : ∀ s, r.ok s

instance {fields : Fields reread α} {split : σ → α} {join : α → σ} {h : ∀ s, join (split s) = s}
    {h' : ∀ a, split (join a) = a} [hf : fields.Total] :
    (⟨fields, split, join, h, h'⟩ : Record reread σ).Total := ⟨fun s => hf.ok (split s)⟩

instance [hr : r.Total] : r.codec.Total := ⟨hr.ok, nofun⟩

end Record

end HerdrMobile.Lib
