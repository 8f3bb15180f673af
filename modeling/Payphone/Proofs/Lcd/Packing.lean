import Mathlib.Data.List.Basic
import Mathlib.Data.List.Induction
import Payphone.Lcd.Packing

/-!
Packing and unpacking of rate classes.

Class `i` stands in byte `i / perByte`, at the place of `i % perByte` (`index_locate`, `locate_mod`). This file
shows that

1. within a byte, writing a class keeps its low bits and disturbs no other place (`get_set`), and a byte is its
   classes (`eq_of_get`);
2. so writing one class of the data changes that class only (`setClass?_spec`), and packed data has every class
   that was packed (`pack?_spec`);
3. unpacking data and packing the classes gives the data back (`pack?_unpack?`), and packing classes and unpacking
   the data gives of each class what its place keeps (`unpack?_pack?`), which is all of it if the classes fit
   (`map_kept_of_le`).
-/
namespace Payphone.Lcd.Packing

theorem mem_all (p : Packing) : p ∈ all := by cases p <;> decide

theorem perByte_pos (p : Packing) : 0 < p.perByte := by cases p <;> decide

theorem ofPayloadLength?_payloadLength (p : Packing) : ofPayloadLength? p.payloadLength = some p := by
  cases p <;> rfl

/-- The length of a payload tells its packing. -/
theorem payloadLength_injective {p q : Packing} (h : p.payloadLength = q.payloadLength) : p = q := by
  have found := ofPayloadLength?_payloadLength q
  rw [← h, ofPayloadLength?_payloadLength] at found
  exact Option.some.inj found

/-! Places in a byte. -/

theorem index_locate (p : Packing) (i : Nat) : (p.locate i).index = i / p.perByte := by
  cases p with
  | uncompressed => exact (Nat.div_one i).symm
  | compressed => by_cases h : i % 2 = 0 <;> simp [locate, perByte, h]
  | doubleCompressed => rfl

theorem locate_mod (p : Packing) (i : Nat) :
    (p.locate i).get = (p.locate (i % p.perByte)).get ∧ (p.locate i).set = (p.locate (i % p.perByte)).set := by
  cases p with
  | uncompressed => exact ⟨rfl, rfl⟩
  | compressed =>
    have hmod : i % 2 % 2 = i % 2 := Nat.mod_mod i 2
    by_cases h : i % 2 = 0 <;> simp [locate, perByte, hmod, h] <;> exact ⟨rfl, rfl⟩
  | doubleCompressed =>
    have hmod : i % 4 % 4 = i % 4 := Nat.mod_mod i 4
    simp [locate, perByte, hmod]
    exact ⟨rfl, rfl⟩

/-- What a place keeps of a class. -/
def kept (p : Packing) (rate : UInt8) : UInt8 := UInt8.ofNat (rate.toNat % p.classCount)

theorem toNat_maxClass (p : Packing) : p.maxClass.toNat + 1 = p.classCount := by cases p <;> rfl

theorem classCount_pos (p : Packing) : 0 < p.classCount := by cases p <;> decide

theorem kept_of_le {p : Packing} {rate : UInt8} (h : rate ≤ p.maxClass) : p.kept rate = rate := by
  have hlt : rate.toNat < p.classCount := by
    rw [← toNat_maxClass]
    exact Nat.lt_succ_of_le (UInt8.le_iff_toNat_le.1 h)
  rw [kept, Nat.mod_eq_of_lt hlt, UInt8.ofNat_toNat]

theorem kept_le (p : Packing) (rate : UInt8) : p.kept rate ≤ p.maxClass := by
  have hlt : rate.toNat % p.classCount < p.classCount := Nat.mod_lt _ p.classCount_pos
  have hmax := p.toNat_maxClass
  have hbyte := p.maxClass.toNat_lt
  rw [UInt8.le_iff_toNat_le, kept, UInt8.toNat_ofNat', Nat.mod_eq_of_lt (by omega)]
  omega

/-! The places of a packing share out the bits of a byte. -/

theorem mask_and_mask : ∀ p ∈ all, ∀ r < p.perByte, ∀ s < p.perByte,
    (p.locate r).mask &&& (p.locate s).mask = if s = r then (p.locate r).mask else 0 := by
  decide +kernel

theorem not_mask_and_mask : ∀ p ∈ all, ∀ r < p.perByte, ∀ s < p.perByte,
    ~~~(p.locate r).mask &&& (p.locate s).mask = if s = r then 0 else (p.locate s).mask := by
  decide +kernel

/-! What a place makes of a byte: a check of all bytes. -/

theorem get_shifted_ofNat : ∀ p ∈ all, ∀ r < p.perByte, ∀ n < 256,
    (p.locate r).get (UInt8.ofNat n <<< (p.locate r).shift) = p.kept (UInt8.ofNat n) := by
  decide +kernel

theorem kept_get_ofNat : ∀ p ∈ all, ∀ r < p.perByte, ∀ n < 256,
    p.kept ((p.locate r).get (UInt8.ofNat n)) = (p.locate r).get (UInt8.ofNat n) := by
  decide +kernel

theorem rebuild_ofNat : ∀ p ∈ all, ∀ n < 256,
    (List.range p.perByte).foldl (fun x r => x ||| (p.locate r).get (UInt8.ofNat n) <<< (p.locate r).shift) 0 =
      UInt8.ofNat n := by
  decide +kernel

theorem get_or (place : Place) (x y : UInt8) : place.get (x ||| y) = place.get x ||| place.get y := by
  have hand : (x ||| y) &&& place.mask = (x &&& place.mask) ||| (y &&& place.mask) := by
    apply UInt8.toBitVec_inj.1
    exact BitVec.and_or_distrib_right
  rw [Place.get, hand, UInt8.shiftRight_or]
  rfl

variable {p : Packing} {r s : Nat}

/-- A place that is cleared is empty, and no other place notices. -/
theorem get_clear (hr : r < p.perByte) (hs : s < p.perByte) (x : UInt8) :
    (p.locate s).get (x &&& ~~~(p.locate r).mask) = if s = r then 0 else (p.locate s).get x := by
  rw [Place.get, UInt8.and_assoc, not_mask_and_mask p (mem_all p) r hr s hs]
  by_cases h : s = r
  · rw [if_pos h, if_pos h, UInt8.and_zero, UInt8.zero_shiftRight]
  · rw [if_neg h, if_neg h]
    rfl

/-- A class that is moved to its place is there, and nowhere else. -/
theorem get_shifted (hr : r < p.perByte) (hs : s < p.perByte) (rate : UInt8) :
    (p.locate s).get ((rate <<< (p.locate r).shift) &&& (p.locate r).mask) =
      if s = r then p.kept rate else 0 := by
  rw [Place.get, UInt8.and_assoc, mask_and_mask p (mem_all p) r hr s hs]
  by_cases h : s = r
  · have hkept := get_shifted_ofNat p (mem_all p) r hr rate.toNat rate.toNat_lt
    rw [UInt8.ofNat_toNat] at hkept
    rw [if_pos h, if_pos h, h]
    exact hkept
  · rw [if_neg h, if_neg h, UInt8.and_zero, UInt8.zero_shiftRight]

theorem get_set (hr : r < p.perByte) (hs : s < p.perByte) (x rate : UInt8) :
    (p.locate s).get ((p.locate r).set x rate) = if s = r then p.kept rate else (p.locate s).get x := by
  rw [Place.set, get_or, get_clear hr hs, get_shifted hr hs]
  by_cases h : s = r
  · rw [if_pos h, if_pos h, if_pos h, UInt8.zero_or]
  · rw [if_neg h, if_neg h, if_neg h, UInt8.or_zero]

/-- A byte is the classes in it. -/
theorem eq_of_get {x y : UInt8} (h : ∀ r < p.perByte, (p.locate r).get x = (p.locate r).get y) : x = y := by
  have hx := rebuild_ofNat p (mem_all p) x.toNat x.toNat_lt
  have hy := rebuild_ofNat p (mem_all p) y.toNat y.toNat_lt
  rw [UInt8.ofNat_toNat] at hx hy
  rw [← hx, ← hy]
  apply List.foldl_ext
  intro z r hr
  rw [h r (List.mem_range.1 hr)]

theorem kept_get (hr : r < p.perByte) (x : UInt8) : p.kept ((p.locate r).get x) = (p.locate r).get x := by
  have := kept_get_ofNat p (mem_all p) r hr x.toNat x.toNat_lt
  rwa [UInt8.ofNat_toNat] at this

/-! Classes in data. -/

variable {data : Bytes} {i : Nat}

theorem class?_eq (p : Packing) (data : Bytes) (i : Nat) :
    p.class? data i = data[i / p.perByte]?.map (p.locate (i % p.perByte)).get := by
  rw [class?, index_locate, (locate_mod p i).1]

theorem setClass?_eq (p : Packing) (data : Bytes) (i : Nat) (rate : UInt8) :
    p.setClass? data i rate =
      data[i / p.perByte]?.map fun x => data.set (i / p.perByte) ((p.locate (i % p.perByte)).set x rate) := by
  rw [setClass?, index_locate, (locate_mod p i).2]

theorem exists_class? (h : i < data.length * p.perByte) : ∃ rate, p.class? data i = some rate := by
  have hindex : i / p.perByte < data.length := Nat.div_lt_of_lt_mul (by rwa [Nat.mul_comm])
  rw [class?_eq, List.getElem?_eq_getElem hindex]
  exact ⟨_, rfl⟩

/-- Data of one length is the same if all its classes are. -/
theorem eq_of_class? {data' : Bytes} (hlen : data.length = data'.length)
    (h : ∀ i < data.length * p.perByte, p.class? data i = p.class? data' i) : data = data' := by
  apply List.ext_getElem hlen
  intro j hj hj'
  apply eq_of_get (p := p)
  intro r hr
  have hi : p.perByte * j + r < data.length * p.perByte := by
    have : p.perByte * (j + 1) ≤ p.perByte * data.length := Nat.mul_le_mul_left _ hj
    rw [Nat.mul_succ] at this
    rw [Nat.mul_comm data.length]
    omega
  have hdiv : (p.perByte * j + r) / p.perByte = j := by
    rw [Nat.mul_add_div (perByte_pos p), Nat.div_eq_of_lt hr, Nat.add_zero]
  have hmod : (p.perByte * j + r) % p.perByte = r := by
    rw [Nat.mul_add_mod, Nat.mod_eq_of_lt hr]
  have hclass := h _ hi
  rw [class?_eq, class?_eq, hdiv, hmod, List.getElem?_eq_getElem hj, List.getElem?_eq_getElem hj'] at hclass
  exact Option.some.inj hclass

/-- Writing a class changes that class only. -/
theorem setClass?_spec (h : i < data.length * p.perByte) (rate : UInt8) :
    ∃ data', p.setClass? data i rate = some data' ∧ data'.length = data.length ∧
      ∀ j, p.class? data' j = if j = i then some (p.kept rate) else p.class? data j := by
  have hindex : i / p.perByte < data.length := Nat.div_lt_of_lt_mul (by rwa [Nat.mul_comm])
  have place (j : Nat) : j % p.perByte < p.perByte := Nat.mod_lt j (perByte_pos p)
  refine ⟨data.set (i / p.perByte) ((p.locate (i % p.perByte)).set data[i / p.perByte] rate), ?_, ?_, ?_⟩
  · rw [setClass?_eq, List.getElem?_eq_getElem hindex]
    rfl
  · rw [List.length_set]
  · intro j
    rw [class?_eq, class?_eq]
    by_cases hbyte : i / p.perByte = j / p.perByte
    · -- the same byte: it is the same class exactly if it is the same place
      rw [← hbyte, List.getElem?_set_self hindex, Option.map_some, get_set (place i) (place j),
        List.getElem?_eq_getElem hindex, Option.map_some]
      by_cases hplace : j % p.perByte = i % p.perByte
      · have hj : j = i := by
          rw [← Nat.div_add_mod j p.perByte, ← Nat.div_add_mod i p.perByte, hbyte, hplace]
        rw [if_pos hplace, if_pos hj]
      · rw [if_neg hplace, if_neg fun hj => hplace (by rw [hj])]
    · rw [List.getElem?_set_ne hbyte, if_neg fun hj => hbyte (by rw [hj])]

/-- Packed data has every class that was packed, as far as its place keeps it, and zeros behind. -/
theorem pack?_spec {n : Nat} {classes : List UInt8} (h : classes.length ≤ n * p.perByte) :
    ∃ data, p.pack? n classes = some data ∧ data.length = n ∧
      ∀ i < n * p.perByte, p.class? data i = some ((classes[i]?.map p.kept).getD 0) := by
  -- by the classes written so far, of which the last one is the one to be looked at
  induction classes using List.reverseRecOn with
  | nil =>
    refine ⟨List.replicate n 0, rfl, List.length_replicate, ?_⟩
    intro i hi
    have hindex : i / p.perByte < n := Nat.div_lt_of_lt_mul (by rwa [Nat.mul_comm])
    rw [class?_eq, List.getElem?_replicate, if_pos hindex]
    simp [Place.get]
  | append_singleton classes rate ih =>
    rw [List.length_append, List.length_singleton] at h
    obtain ⟨data, hpack, hlen, hclass⟩ := ih (by omega)
    have hlast : classes.length < data.length * p.perByte := by
      rw [hlen]
      exact h
    obtain ⟨data', hset, hlen', hclass'⟩ := setClass?_spec hlast rate
    refine ⟨data', ?_, hlen'.trans hlen, ?_⟩
    · rw [pack?] at hpack ⊢
      rw [List.zipIdx_append, List.foldlM_append, hpack, Nat.zero_add]
      simpa using hset
    · intro i hi
      rw [hclass' i, hclass i hi]
      by_cases hi' : i = classes.length
      · rw [if_pos hi', hi', List.getElem?_concat_length]
        rfl
      · rw [if_neg hi']
        by_cases hlt : i < classes.length
        · rw [List.getElem?_append_left hlt]
        · rw [List.getElem?_eq_none (by omega), List.getElem?_eq_none (by simp; omega)]

theorem unpack?_spec {n : Nat} (h : n ≤ data.length * p.perByte) :
    ∃ classes, p.unpack? n data = some classes ∧ ∀ i (hi : i < n), p.class? data i = some classes[i] := by
  have each (i : Fin n) : ∃ rate, p.class? data i = some rate := exists_class? (by omega)
  -- no place is missing, so the vector can be made without looking for one
  choose rate hrate using each
  refine ⟨Vector.ofFn rate, ?_, ?_⟩
  · have same : (fun i : Fin n => p.class? data i) = fun i => some (rate i) := funext hrate
    rw [unpack?, same]
    exact Vector.ofFnM_pure
  · intro i hi
    rw [hrate ⟨i, hi⟩, Vector.getElem_ofFn]

/-- **Unpacking and packing gives the data back.** -/
theorem pack?_unpack? {n : Nat} (h : n = data.length * p.perByte) :
    ∃ classes, p.unpack? n data = some classes ∧ p.pack? data.length classes.toList = some data := by
  obtain ⟨classes, hunpack, hclasses⟩ := unpack?_spec (Nat.le_of_eq h)
  have room : classes.toList.length ≤ data.length * p.perByte := by
    rw [Vector.length_toList]
    omega
  obtain ⟨packed, hpack, hlen, hpacked⟩ := pack?_spec room
  refine ⟨classes, hunpack, ?_⟩
  rw [hpack]
  congr 1
  apply eq_of_class? (p := p) hlen
  intro i hi
  rw [hlen] at hi
  have hn : i < n := by omega
  have hplace : i % p.perByte < p.perByte := Nat.mod_lt i (perByte_pos p)
  have hclass := hclasses i hn
  rw [class?_eq] at hclass
  obtain ⟨x, hx, hget⟩ := Option.map_eq_some_iff.1 hclass
  -- a class that was read from its place is kept whole
  rw [hpacked i hi, hclasses i hn, Vector.getElem?_toList, Vector.getElem?_eq_getElem hn, Option.map_some,
    Option.getD_some, ← hget, kept_get hplace]

/-- No class that is read from its place is too large for the packing. -/
theorem le_maxClass_of_class? {rate : UInt8} (h : p.class? data i = some rate) : rate ≤ p.maxClass := by
  rw [class?_eq] at h
  obtain ⟨x, -, rfl⟩ := Option.map_eq_some_iff.1 h
  rw [← kept_get (Nat.mod_lt i (perByte_pos p)) x]
  exact kept_le p _

theorem le_maxClass_of_unpack? {n : Nat} {classes : Vector UInt8 n} (h : n ≤ data.length * p.perByte)
    (hu : p.unpack? n data = some classes) : ∀ c ∈ classes.toList, c ≤ p.maxClass := by
  obtain ⟨read, hread, hclass⟩ := unpack?_spec h
  obtain rfl : read = classes := Option.some.inj (hread.symm.trans hu)
  intro c hc
  obtain ⟨i, hi, rfl⟩ := List.mem_iff_getElem.1 hc
  rw [Vector.length_toList] at hi
  exact le_maxClass_of_class? (hclass i hi)

/-- **Packing and unpacking gives every class back as far as its place keeps it.** -/
theorem unpack?_pack? {n m : Nat} (classes : Vector UInt8 n) (h : n ≤ m * p.perByte) :
    ∃ packed, p.pack? m classes.toList = some packed ∧ packed.length = m ∧
      p.unpack? n packed = some (classes.map p.kept) := by
  have room : classes.toList.length ≤ m * p.perByte := by rwa [Vector.length_toList]
  obtain ⟨packed, hpack, hlen, hpacked⟩ := pack?_spec room
  have full : n ≤ packed.length * p.perByte := by rwa [hlen]
  obtain ⟨read, hread, hclass⟩ := unpack?_spec full
  refine ⟨packed, hpack, hlen, ?_⟩
  rw [hread]
  congr 1
  apply Vector.ext
  intro i hi
  have hgot := hclass i hi
  rw [hpacked i (by omega), Vector.getElem?_toList, Vector.getElem?_eq_getElem hi, Option.map_some,
    Option.getD_some] at hgot
  rw [Vector.getElem_map]
  exact (Option.some.inj hgot).symm

/-- Classes that fit are kept whole. -/
theorem map_kept_of_le {n : Nat} {classes : Vector UInt8 n} (fit : ∀ c ∈ classes.toList, c ≤ p.maxClass) :
    classes.map p.kept = classes := by
  apply Vector.ext
  intro i hi
  have hmem : classes[i] ∈ classes.toList := by simp
  rw [Vector.getElem_map, kept_of_le (fit _ hmem)]

end Payphone.Lcd.Packing
