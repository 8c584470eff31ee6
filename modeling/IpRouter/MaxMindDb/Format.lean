import IpRouter.MaxMindDb.Data
import IpRouter.Theory.Framing

/-!
# The format of the data section

What a data section is for: it holds values, which are texts, numbers, maps and
arrays (`Value`), and a path of keys and indices leads from a value to a value in it
(`Value.follow`). `StandsAt db height offset v next` says that `v` stands in the
section from `offset` to `next`: a control byte with the type and the size, the
bytes, and the values in a map or an array one after the other, each of them itself
or a pointer to where it stands. Every way of writing a number or a pointer that the
format has is allowed.

`getValue_follow` is the result: where a value stands, `MMDB_aget_value` finds what
the path leads to, and reports what it should where the path leads nowhere.
-/

namespace IpRouter.MaxMindDb

open Theory

/-! ### Values -/

/-- A value. -/
inductive Value where
  | utf8String (utf8String : Bytes)
  | double (bits : ℕ)
  | bytes (bytes : Bytes)
  | uint16 (uint16 : ℕ)
  | uint32 (uint32 : ℕ)
  | int32 (int32 : ℤ)
  | uint64 (uint64 : ℕ)
  | uint128 (uint128 : ℕ)
  | boolean (boolean : Bool)
  | float (bits : ℕ)
  /-- Keys with their values. -/
  | map (entries : List (Bytes × Value))
  /-- Values. -/
  | array (items : List Value)

namespace Value

/-- What an entry says about a value: of a map and of an array the size. -/
def datum : Value → Datum
  | utf8String s => .utf8String s
  | double bits => .double bits
  | bytes s => .bytes s
  | uint16 n => .uint16 n
  | uint32 n => .uint32 n
  | int32 n => .int32 n
  | uint64 n => .uint64 n
  | uint128 n => .uint128 n
  | boolean b => .boolean b
  | float bits => .float bits
  | map entries => .map entries.length
  | array items => .array items.length

/-- The index a text denotes in an array of a size: from the end where it is negative. -/
def index (pathElem : Bytes) (size : ℕ) : Except MmdbError ℕ :=
  let strtol := strtoll pathElem
  let i : ℤ := if strtol.value < 0 then strtol.value + size else strtol.value
  if ¬ strtol.inRange then .error .invalidLookupPath
  else if strtol.rest = [] ∧ 0 ≤ i ∧ i < size then .ok i.toNat
  else .error .lookupPathDoesNotMatchData

/-- What a key, or an index, leads to. -/
def child (pathElem : Bytes) : Value → Except MmdbError Value
  | map entries =>
    match entries.find? (fun entry => entry.1 = pathElem) with
    | some entry => .ok entry.2
    | none => .error .lookupPathDoesNotMatchData
  | array items => do
    let i ← index pathElem items.length
    match items[i]? with
    | some item => .ok item
    | none => .error .lookupPathDoesNotMatchData
  | _ => .error .lookupPathDoesNotMatchData

/-- What a path leads to. -/
def follow : List Bytes → Value → Except MmdbError Value
  | [], v => .ok v
  | pathElem :: path, v => child pathElem v >>= follow path

end Value

/-! ### Control bytes -/

/-- The number of a type. -/
def DataType.num : DataType → ℕ
  | .extended => 0
  | .pointer => 1
  | .utf8String => 2
  | .double => 3
  | .bytes => 4
  | .uint16 => 5
  | .uint32 => 6
  | .map => 7
  | .int32 => 8
  | .uint64 => 9
  | .uint128 => 10
  | .array => 11
  | .container => 12
  | .endMarker => 13
  | .boolean => 14
  | .float => 15
  | .other num => num

/-- The number in the control byte that stands for a size. -/
def sizeCode (size : ℕ) : ℕ :=
  if size < 29 then size else if size < 285 then 29 else if size < 65821 then 30 else 31

/-- The bytes of the size after the control byte. -/
def sizeBytes (size : ℕ) : Bytes :=
  if size < 29 then []
  else if size < 285 then ByteOrder.big.encode 1 (size - 29)
  else if size < 65821 then ByteOrder.big.encode 2 (size - 285)
  else ByteOrder.big.encode 3 (size - 65821)

/-- The bytes before the data: the type, in a byte of its own where it does not fit in the
control byte, and the size. -/
def control (type : DataType) (size : ℕ) : Bytes :=
  if type.num ≤ 7 then UInt8.ofNat (type.num * 32 + sizeCode size) :: sizeBytes size
  else UInt8.ofNat (sizeCode size) :: UInt8.ofNat (type.num - 7) :: sizeBytes size

/-- A number fits in a pointer of `psize` bytes after the control byte. -/
def PointerFits : ℕ → ℕ → Prop
  | 1, pointer => pointer < 2048
  | 2, pointer => 2048 ≤ pointer ∧ pointer < 2048 + 524288
  | 3, pointer => 2048 + 524288 ≤ pointer ∧ pointer < 2048 + 524288 + 134217728
  | 4, pointer => pointer < 2 ^ 32
  | _, _ => False

/-- What a pointer of a size is counted from. -/
def pointerBase : ℕ → ℕ
  | 2 => 2048
  | 3 => 2048 + 524288
  | _ => 0

/-- A pointer: the high bits in the control byte, the others after it. -/
def pointerBytes (psize pointer : ℕ) : Bytes :=
  UInt8.ofNat (32 + (psize - 1) * 8 + (pointer - pointerBase psize) / 256 ^ psize) ::
    ByteOrder.big.encode psize (pointer - pointerBase psize)

/-- The bytes of a value that contains no others: its type, its size, and its data. -/
inductive Payload : Value → DataType → ℕ → Bytes → Prop
  | utf8String (s : Bytes) : Payload (.utf8String s) .utf8String s.length s
  | bytes (s : Bytes) : Payload (.bytes s) .bytes s.length s
  | double (data : Bytes) : data.length = 8 →
      Payload (.double (ByteOrder.big.decode data)) .double 8 data
  | float (data : Bytes) : data.length = 4 →
      Payload (.float (ByteOrder.big.decode data)) .float 4 data
  | uint16 (data : Bytes) : data.length ≤ 2 →
      Payload (.uint16 (ByteOrder.big.decode data)) .uint16 data.length data
  | uint32 (data : Bytes) : data.length ≤ 4 →
      Payload (.uint32 (ByteOrder.big.decode data)) .uint32 data.length data
  | int32 (data : Bytes) : data.length ≤ 4 →
      Payload (.int32 (BitVec.ofNat 32 (ByteOrder.big.decode data)).toInt) .int32 data.length data
  | uint64 (data : Bytes) : data.length ≤ 8 →
      Payload (.uint64 (ByteOrder.big.decode data)) .uint64 data.length data
  | uint128 (data : Bytes) : data.length ≤ 16 →
      Payload (.uint128 (ByteOrder.big.decode data)) .uint128 data.length data
  | boolean (b : Bool) : Payload (.boolean b) .boolean b.toNat []

namespace DataSection

/-- The section, as memory. -/
def buffer (db : DataSection) : Buffer := ⟨.big, db.content, fun _ => 0⟩

/-- The bytes stand at the offset. -/
def Holds (db : DataSection) (offset : ℕ) (bytes : Bytes) : Prop := db.buffer.Holds offset bytes

/-- A control byte and what belongs to it stand at `offset`, up to `next`. -/
def ControlAt (db : DataSection) (offset : ℕ) (type : DataType) (size next : ℕ) : Prop :=
  db.Holds offset (control type size) ∧ size < 65821 + 2 ^ 24 ∧
    next = offset + (control type size).length

/-- A pointer stands from `offset` to `next`. -/
def PointerAt (db : DataSection) (offset pointer next : ℕ) : Prop :=
  ∃ psize, PointerFits psize pointer ∧ db.Holds offset (pointerBytes psize pointer) ∧
    next = offset + 1 + psize

/-- A value that contains no others stands from `offset` to `next`. -/
def ScalarAt (db : DataSection) (offset : ℕ) (v : Value) (next : ℕ) : Prop :=
  ∃ type size data inner, Payload v type size data ∧ db.ControlAt offset type size inner ∧
    db.Holds inner data ∧
    next = inner + data.length

/-- What stands where `R` says, or a pointer to it. -/
def FieldAt {α : Type} (db : DataSection) (R : ℕ → α → ℕ → Prop) (offset : ℕ) (a : α)
    (next : ℕ) : Prop :=
  R offset a next ∨ ∃ pointer next', db.PointerAt offset pointer next ∧ R pointer a next'

/-- A key of a map with its value. -/
def EntryAt (db : DataSection) (R : ℕ → Value → ℕ → Prop) (offset : ℕ) (entry : Bytes × Value)
    (next : ℕ) : Prop :=
  ∃ mid, db.FieldAt (fun offset key => db.ScalarAt offset (.utf8String key)) offset entry.1 mid ∧
    db.FieldAt R mid entry.2 next

/-- **A value stands from `offset` to `next`**, maps and arrays in one another at most `height`
deep. -/
def StandsAt (db : DataSection) : ℕ → ℕ → Value → ℕ → Prop
  | 0 => fun _ _ _ => False
  | height + 1 => fun offset v next =>
    match v with
    | .map entries => ∃ inner, db.ControlAt offset .map entries.length inner ∧
        Laid (db.EntryAt (db.StandsAt height)) inner entries next
    | .array items => ∃ inner, db.ControlAt offset .array items.length inner ∧
        Laid (db.FieldAt (db.StandsAt height)) inner items next
    | v => db.ScalarAt offset v next

variable {db : DataSection} {offset next : ℕ} {bytes bytes' : Bytes} {b : UInt8}

/-! ### Reading what stands in the section -/

theorem Holds.left (h : db.Holds offset (bytes ++ bytes')) : db.Holds offset bytes :=
  Buffer.Holds.left h

theorem Holds.right (h : db.Holds offset (bytes ++ bytes')) :
    db.Holds (offset + bytes.length) bytes' :=
  Buffer.Holds.right h

theorem Holds.tail (h : db.Holds offset (b :: bytes)) : db.Holds (offset + 1) bytes := by
  have h' : db.Holds offset ([b] ++ bytes) := h
  exact h'.right

theorem Holds.byte (h : db.Holds offset (b :: bytes)) : db.content.byte offset = .ok b.toNat := by
  have hat : db.content[offset + 0]? = some b := Buffer.holds_iff.mp h 0 (Nat.succ_pos _)
  rw [Nat.add_zero] at hat
  rw [Memory.byte, hat]

theorem Holds.add_le (h : db.Holds offset bytes) (hne : bytes ≠ []) :
    offset + bytes.length ≤ db.content.length := by
  have hpos := List.length_pos_iff.mpr hne
  have hat := Buffer.holds_iff.mp h (bytes.length - 1) (by omega)
  obtain ⟨hlt, -⟩ := List.getElem?_eq_some_iff.mp hat
  have hlt : offset + (bytes.length - 1) < db.content.length := hlt
  omega

theorem Holds.getUint16 {n : ℕ} (h : db.Holds offset (ByteOrder.big.encode 2 n)) :
    db.content.getUint16 offset = .ok (n % 256 ^ 2) := by
  have hbytes : db.Holds offset [UInt8.ofNat (n / 256), UInt8.ofNat n] := h
  simp only [Memory.getUint16, hbytes.byte, hbytes.tail.byte, Checked.ok_bind, Checked.pure_eq,
    UInt8.toNat_ofNat']
  congr 1
  omega

theorem Holds.getUint24 {n : ℕ} (h : db.Holds offset (ByteOrder.big.encode 3 n)) :
    db.content.getUint24 offset = .ok (n % 256 ^ 3) := by
  have hbytes : db.Holds offset [UInt8.ofNat (n / 256 / 256), UInt8.ofNat (n / 256),
      UInt8.ofNat n] :=
    h
  simp only [Memory.getUint24, hbytes.byte, hbytes.tail.byte, hbytes.tail.tail.byte,
    Checked.ok_bind, Checked.pure_eq, UInt8.toNat_ofNat']
  congr 1
  omega

theorem Holds.getUint32 {n : ℕ} (h : db.Holds offset (ByteOrder.big.encode 4 n)) :
    db.content.getUint32 offset = .ok (n % 256 ^ 4) := by
  have hbytes : db.Holds offset [UInt8.ofNat (n / 256 / 256 / 256), UInt8.ofNat (n / 256 / 256),
      UInt8.ofNat (n / 256), UInt8.ofNat n] :=
    h
  simp only [Memory.getUint32, hbytes.byte, hbytes.tail.byte, hbytes.tail.tail.byte,
    hbytes.tail.tail.tail.byte, Checked.ok_bind, Checked.pure_eq, UInt8.toNat_ofNat']
  congr 1
  omega

/-- **The loop reads the number the bytes hold**, if they fit in the variable. -/
theorem Holds.getBytes (h : db.Holds offset bytes) {bits value : ℕ}
    (hfits : value * 256 ^ bytes.length + 256 ^ bytes.length ≤ 2 ^ bits) :
    db.content.getBytes bits bytes.length offset value =
      .ok (value * 256 ^ bytes.length + ByteOrder.big.decode bytes) := by
  induction bytes generalizing offset value with
  | nil => simp [Memory.getBytes]
  | cons b bytes ih =>
    have hbyte := b.toNat_lt
    have hone : 1 ≤ 256 ^ bytes.length := Nat.pow_pos (Nat.succ_pos 255)
    have hpow : 256 ^ (b :: bytes).length = 256 * 256 ^ bytes.length := by
      rw [List.length_cons, Nat.pow_succ, Nat.mul_comm]
    have hroom : (value * 256 + b.toNat) * 256 ^ bytes.length + 256 ^ bytes.length ≤ 2 ^ bits := by
      refine le_trans ?_ hfits
      rw [hpow, ← Nat.succ_mul, ← Nat.mul_assoc, ← Nat.add_mul]
      exact Nat.mul_le_mul_right _ (by omega)
    have hlt : value * 256 + b.toNat < 2 ^ bits := by
      have hle := Nat.le_mul_of_pos_right (value * 256 + b.toNat) hone
      omega
    have hvalue : value * 256 < 2 ^ bits := lt_of_le_of_lt (Nat.le_add_right _ _) hlt
    have hstep : (value * 256 % 2 ^ bits + b.toNat) % 2 ^ bits = value * 256 + b.toNat := by
      rw [Nat.mod_eq_of_lt hvalue, Nat.mod_eq_of_lt hlt]
    have hsum : value * 256 ^ (b :: bytes).length = value * 256 * 256 ^ bytes.length := by
      rw [hpow, Nat.mul_assoc]
    rw [List.length_cons, Memory.getBytes, h.byte, Checked.ok_bind, hstep, ih h.tail hroom,
      ByteOrder.decode_big_cons,
      Nat.add_mul, ← List.length_cons (a := b), hsum, Nat.add_assoc]

/-- A number that fits is read from its bytes. -/
theorem Holds.getUint (h : db.Holds offset bytes) {bits : ℕ}
    (hfits : 256 ^ bytes.length ≤ 2 ^ bits) :
    db.content.getBytes bits bytes.length offset 0 = .ok (ByteOrder.big.decode bytes) := by
  rw [h.getBytes (by omega), Nat.zero_mul, Nat.zero_add]

theorem Holds.span (h : db.Holds offset bytes) :
    db.content.span offset bytes.length = .ok bytes := by
  rw [Memory.span]
  split_ifs with hzero hle
  · rw [List.length_eq_zero_iff.mp hzero]
  · obtain ⟨rest, hrest⟩ := h
    rw [show db.content.drop offset = bytes ++ rest from hrest.symm, List.take_left]
  · exact absurd (h.add_le fun hnil => hzero (congrArg List.length hnil)) hle

/-- A check passes where enough bytes stand. -/
theorem not_sub32_lt {size : ℕ} (h : offset + size ≤ db.content.length) :
    ¬sub32 db.content.length size < offset := by
  rw [sub32_of_le (by omega)]
  omega

/-! ### Decoding what stands in the section -/

theorem shiftRight_and (n k j : ℕ) : (n >>> k) &&& (2 ^ j - 1) = n / 2 ^ k % 2 ^ j := by
  rw [Nat.and_two_pow_sub_one_eq_mod, Nat.shiftRight_eq_div_pow]

theorem sizeCode_lt (size : ℕ) : sizeCode size < 32 := by
  rw [sizeCode]
  split_ifs <;> omega

/-- **The size is read back.** -/
theorem decodeSize_sizeBytes (ctrl : ℕ) {size : ℕ} (h : db.Holds offset (sizeBytes size))
    (hsize : size < 65821 + 2 ^ 24) (hctrl : ctrl % 32 = sizeCode size) :
    db.decodeSize ctrl offset = .ok (size, offset + (sizeBytes size).length) := by
  have hmask : ctrl &&& 31 = sizeCode size := (Nat.and_two_pow_sub_one_eq_mod ctrl 5).trans hctrl
  rw [DataSection.decodeSize, hmask]
  rcases Nat.lt_or_ge size 29 with h₁ | h₁
  · -- the size itself stands in the control byte
    have hcode : sizeCode size = size := if_pos h₁
    have hnil : sizeBytes size = [] := if_pos h₁
    rw [hcode, hnil]
    split
    · omega
    · omega
    · omega
    · rfl
  rcases Nat.lt_or_ge size 285 with h₂ | h₂
  · have hcode : sizeCode size = 29 := by simp [sizeCode, Nat.not_lt.mpr h₁, h₂]
    have hbytes : sizeBytes size = [UInt8.ofNat (size - 29)] := by
      simp [sizeBytes, Nat.not_lt.mpr h₁, h₂, ByteOrder.encode, toLittle]
    rw [hbytes] at h ⊢
    have hroom : offset + 1 ≤ db.content.length := h.add_le (List.cons_ne_nil _ _)
    simp only [hcode, if_neg (not_sub32_lt hroom), h.byte, Checked.ok_bind, Checked.pure_eq,
      List.length_singleton]
    rw [UInt8.toNat_ofNat_of_lt' (show size - 29 < 256 by omega), Nat.add_sub_cancel' h₁]
  rcases Nat.lt_or_ge size 65821 with h₃ | h₃
  · have hcode : sizeCode size = 30 := by simp [sizeCode, Nat.not_lt.mpr h₁, Nat.not_lt.mpr h₂, h₃]
    have hbytes : sizeBytes size = ByteOrder.big.encode 2 (size - 285) := by
      simp [sizeBytes, Nat.not_lt.mpr h₁, Nat.not_lt.mpr h₂, h₃]
    rw [hbytes] at h ⊢
    have hroom := h.add_le (List.ne_nil_of_length_pos (by simp))
    rw [ByteOrder.length_encode] at hroom ⊢
    simp only [hcode, if_neg (not_sub32_lt hroom), h.getUint16, Checked.ok_bind, Checked.pure_eq]
    rw [Nat.mod_eq_of_lt (by omega), Nat.add_sub_cancel' h₂]
  · have hcode : sizeCode size = 31 := by
      simp [sizeCode, Nat.not_lt.mpr h₁, Nat.not_lt.mpr h₂, Nat.not_lt.mpr h₃]
    have hbytes : sizeBytes size = ByteOrder.big.encode 3 (size - 65821) := by
      simp [sizeBytes, Nat.not_lt.mpr h₁, Nat.not_lt.mpr h₂, Nat.not_lt.mpr h₃]
    rw [hbytes] at h ⊢
    have hroom := h.add_le (List.ne_nil_of_length_pos (by simp))
    rw [ByteOrder.length_encode] at hroom ⊢
    simp only [hcode, if_neg (not_sub32_lt hroom), h.getUint24, Checked.ok_bind, Checked.pure_eq]
    rw [Nat.mod_eq_of_lt (by omega), Nat.add_sub_cancel' h₃]

/-- An entry in the section. -/
theorem decodeOne_of_room (h : offset + 1 ≤ db.content.length) :
    db.decodeOne offset = db.content.byte offset >>= fun ctrl =>
      db.decodeType ctrl (offset + 1) >>= fun type =>
      db.decodeTyped type.1 ctrl type.2 >>= fun datum => .ok ⟨offset, datum.1, datum.2⟩ := by
  rw [DataSection.decodeOne, if_neg (not_sub32_lt h)]
  rfl

/-- The type of data that stand in a section. -/
structure IsData (type : DataType) : Prop where
  two_le : 2 ≤ type.num
  le_fifteen : type.num ≤ 15
  ofNum_num : DataType.ofNum type.num = type

theorem IsData.ne_pointer {type : DataType} (h : IsData type) : type ≠ .pointer := by
  rintro rfl
  exact absurd h.two_le (by decide)

/-- **The type and the size are read back**, and the data are decoded after them. -/
theorem ControlAt.decodeOne {type : DataType} {size inner : ℕ}
    (h : db.ControlAt offset type size inner) (htype : IsData type) :
    db.decodeOne offset = db.decodeBody type size inner >>= fun r => .ok ⟨offset, r.1, r.2⟩ := by
  obtain ⟨hholds, hsize, rfl⟩ := h
  have hcode := sizeCode_lt size
  have htwo := htype.two_le
  have hroom := hholds.add_le (by rw [control]; split_ifs <;> exact List.cons_ne_nil _ _)
  have hone : 1 ≤ (control type size).length := by
    rw [control]
    split_ifs <;> simp
  rw [decodeOne_of_room (by omega)]
  rcases Nat.lt_or_ge 7 type.num with hext | hseven
  · -- the type stands in a byte of its own
    have hlist : control type size =
        UInt8.ofNat (sizeCode size) :: UInt8.ofNat (type.num - 7) :: sizeBytes size :=
          if_neg (Nat.not_le.mpr hext)
    rw [hlist] at hholds hroom ⊢
    have hfifteen := htype.le_fifteen
    have hnum : 7 + (type.num - 7) = type.num := by omega
    have hzero : (sizeCode size >>> 5) &&& 7 = 0 := (shiftRight_and _ 5 3).trans (by omega)
    have hcheck : ¬sub32 db.content.length 1 < offset + 1 :=
      not_sub32_lt (by simp only [List.length_cons] at hroom; omega)
    rw [hholds.byte, UInt8.toNat_ofNat_of_lt' (show sizeCode size < 256 by omega), Checked.ok_bind]
    have hread : db.decodeType (sizeCode size) (offset + 1) = .ok (type, offset + 1 + 1) := by
      simp only [DataSection.decodeType, hzero]
      rw [if_pos (show DataType.ofNum 0 = .extended from rfl), if_neg hcheck, hholds.tail.byte,
        UInt8.toNat_ofNat_of_lt' (show type.num - 7 < 256 by omega), Checked.ok_bind, getExtType,
        hnum, htype.ofNum_num,
        Checked.pure_eq]
    have hread' := decodeSize_sizeBytes (sizeCode size) hholds.tail.tail hsize (by omega)
    simp only [hread, hread', Checked.ok_bind, decodeTyped, if_neg htype.ne_pointer, decodeSized,
      List.length_cons]
    rw [show offset + 1 + 1 + (sizeBytes size).length = offset +
      ((sizeBytes size).length + 1 + 1) by omega]
  · have hlist : control type size = UInt8.ofNat (type.num * 32 + sizeCode size) ::
        sizeBytes size :=
      if_pos hseven
    rw [hlist] at hholds hroom ⊢
    have hbits : ((type.num * 32 + sizeCode size) >>> 5) &&& 7 = type.num :=
      (shiftRight_and _ 5 3).trans (by omega)
    have hne : type ≠ .extended := by
      rintro rfl
      exact absurd htwo (by decide)
    rw [hholds.byte, UInt8.toNat_ofNat_of_lt' (show type.num * 32 + sizeCode size < 256 by omega),
      Checked.ok_bind]
    have hread : db.decodeType (type.num * 32 + sizeCode size) (offset + 1) =
        .ok (type, offset + 1) := by
      simp only [DataSection.decodeType, hbits, htype.ofNum_num, if_neg hne, Checked.pure_eq]
    have hread' := decodeSize_sizeBytes (type.num * 32 + sizeCode size) hholds.tail hsize (by omega)
    simp only [hread, hread', Checked.ok_bind, decodeTyped, if_neg htype.ne_pointer, decodeSized,
      List.length_cons]
    rw [show offset + 1 + (sizeBytes size).length = offset + ((sizeBytes size).length + 1) by omega]

theorem control_ne_nil (type : DataType) (size : ℕ) : control type size ≠ [] := by
  rw [control]
  split_ifs <;> exact List.cons_ne_nil _ _

theorem ControlAt.le {type : DataType} {size inner : ℕ} (h : db.ControlAt offset type size inner) :
    inner ≤ db.content.length := by
  obtain ⟨hholds, -, rfl⟩ := h
  exact hholds.add_le (control_ne_nil type size)

/-- The bytes of numbers as wide as the variable they are read into. -/
theorem pow_length_le {data : Bytes} {width bits : ℕ} (h : data.length ≤ width)
    (hbits : 8 * width ≤ bits) :
    256 ^ data.length ≤ 2 ^ bits :=
  calc 256 ^ data.length = 2 ^ (8 * data.length) := (Nat.pow_mul 2 8 data.length).symm
    _ ≤ 2 ^ bits := Nat.pow_le_pow_right (by omega) (by omega)

theorem decode_mod {data : Bytes} {width bits : ℕ} (h : data.length ≤ width)
    (hbits : 8 * width ≤ bits) :
    ByteOrder.big.decode data % 2 ^ bits = ByteOrder.big.decode data :=
  Nat.mod_eq_of_lt ((ByteOrder.decode_big_lt data).trans_le (pow_length_le h hbits))

theorem isData_of_payload {v : Value} {type : DataType} {size : ℕ} {data : Bytes}
    (h : Payload v type size data) :
    IsData type := by
  cases h <;> exact ⟨by decide, by decide, rfl⟩

/-- **The data of a value that contains no others are read back.** -/
theorem decodeBody_payload {v : Value} {type : DataType} {size inner : ℕ}
    {data : Bytes} (h : Payload v type size data) (hholds : db.Holds inner data)
    (hinner : inner ≤ db.content.length) :
    db.decodeBody type size inner = .ok (v.datum, inner + data.length) := by
  have hroom : inner + data.length ≤ db.content.length := by
    rcases eq_or_ne data [] with rfl | hne
    · exact hinner
    · exact hholds.add_le hne
  have hcheck : ¬(sub32 db.content.length data.length < inner ∨ db.content.length < data.length) :=
    not_or.mpr ⟨not_sub32_lt hroom, by omega⟩
  cases h with
  | boolean b => cases b <;> rfl
  | utf8String =>
    simp only [DataSection.decodeBody, if_neg hcheck, decodeData, hholds.span, Checked.ok_bind,
      Checked.pure_eq, Value.datum]
  | bytes =>
    simp only [DataSection.decodeBody, if_neg hcheck, decodeData, hholds.span, Checked.ok_bind,
      Checked.pure_eq, Value.datum]
  | double _ hlength =>
    have hread := hholds.getUint (pow_length_le hlength.le (by decide : 8 * 8 ≤ 64))
    rw [hlength] at hread hcheck ⊢
    simp only [DataSection.decodeBody, if_neg hcheck, decodeData, ne_eq, not_true, if_false,
      Memory.getUintX, hread, Checked.ok_bind, Checked.pure_eq, Value.datum]
  | float _ hlength =>
    have hread := hholds.getUint (pow_length_le hlength.le (by decide : 8 * 4 ≤ 64))
    rw [hlength] at hread hcheck ⊢
    simp only [DataSection.decodeBody, if_neg hcheck, decodeData, ne_eq, not_true, if_false,
      Memory.getUintX, hread, Checked.ok_bind, Checked.pure_eq, Value.datum]
  | uint16 _ hlength =>
    have hread := hholds.getUint (pow_length_le hlength (by decide : 8 * 2 ≤ 64))
    simp only [DataSection.decodeBody, if_neg hcheck, decodeData,
      if_neg (Nat.not_lt.mpr hlength), Memory.getUintX, hread, Checked.ok_bind, Checked.pure_eq,
      decode_mod hlength (by decide : 8 * 2 ≤ 16), Value.datum]
  | uint32 _ hlength =>
    have hread := hholds.getUint (pow_length_le hlength (by decide : 8 * 4 ≤ 64))
    simp only [DataSection.decodeBody, if_neg hcheck, decodeData,
      if_neg (Nat.not_lt.mpr hlength), Memory.getUintX, hread, Checked.ok_bind, Checked.pure_eq,
      decode_mod hlength (by decide : 8 * 4 ≤ 32), Value.datum]
  | int32 _ hlength =>
    have hread := hholds.getUint (pow_length_le hlength (by decide : 8 * 4 ≤ 64))
    simp only [DataSection.decodeBody, if_neg hcheck, decodeData, if_neg (Nat.not_lt.mpr hlength),
      Memory.getSintX, Memory.getUintX, hread, Checked.ok_bind, Checked.pure_eq, Value.datum]
  | uint64 _ hlength =>
    have hread := hholds.getUint (pow_length_le hlength (by decide : 8 * 8 ≤ 64))
    simp only [DataSection.decodeBody, if_neg hcheck, decodeData, if_neg (Nat.not_lt.mpr hlength),
      Memory.getUintX, hread, Checked.ok_bind, Checked.pure_eq, Value.datum]
  | uint128 _ hlength =>
    have hread := hholds.getUint (pow_length_le hlength (by decide : 8 * 16 ≤ 128))
    simp only [DataSection.decodeBody, if_neg hcheck, decodeData, if_neg (Nat.not_lt.mpr hlength),
      Memory.getUint128, hread, Checked.ok_bind, Checked.pure_eq, Value.datum]

theorem ScalarAt.decodeOne {v : Value} (h : db.ScalarAt offset v next) :
    db.decodeOne offset = .ok ⟨offset, v.datum, next⟩ := by
  obtain ⟨type, size, data, inner, hpayload, hcontrol, hdata, rfl⟩ := h
  rw [hcontrol.decodeOne (isData_of_payload hpayload),
    decodeBody_payload hpayload hdata hcontrol.le, Checked.ok_bind]

theorem ControlAt.decodeOne_map {size inner : ℕ} (h : db.ControlAt offset .map size inner) :
    db.decodeOne offset = .ok ⟨offset, .map size, inner⟩ :=
  h.decodeOne ⟨by decide, by decide, rfl⟩

theorem ControlAt.decodeOne_array {size inner : ℕ} (h : db.ControlAt offset .array size inner) :
    db.decodeOne offset = .ok ⟨offset, .array size, inner⟩ :=
  h.decodeOne ⟨by decide, by decide, rfl⟩

/-! ### Pointers -/

/-- The control byte of a pointer. -/
structure PointerControl (ctrl psize high : ℕ) : Prop where
  one_le : 1 ≤ psize
  le_four : psize ≤ 4
  high_lt : high < 8
  ctrl_eq : ctrl = 32 + (psize - 1) * 8 + high

theorem PointerControl.bits {ctrl psize high : ℕ} (h : PointerControl ctrl psize high) :
    ctrl < 256 ∧ (ctrl >>> 5) &&& 7 = 1 ∧ (ctrl >>> 3) &&& 3 = psize - 1 ∧ ctrl &&& 7 = high := by
  obtain ⟨hone, hfour, hhigh, rfl⟩ := h
  exact ⟨by omega, (shiftRight_and _ 5 3).trans (by omega), (shiftRight_and _ 3 2).trans (by omega),
    (Nat.and_two_pow_sub_one_eq_mod _ 3).trans (by omega)⟩

/-- Where a number fits in a pointer, its high bits fit in the control byte. -/
theorem PointerFits.control {psize pointer : ℕ} (h : PointerFits psize pointer) :
    PointerControl (32 + (psize - 1) * 8 + (pointer - pointerBase psize) / 256 ^ psize) psize
      ((pointer - pointerBase psize) / 256 ^ psize) := by
  obtain rfl | rfl | rfl | rfl : psize = 1 ∨ psize = 2 ∨ psize = 3 ∨ psize = 4 := by
    rw [PointerFits.eq_def] at h
    split at h <;> simp at h ⊢
  all_goals
    simp only [PointerFits, pointerBase] at h ⊢
    exact ⟨by omega, by omega, by omega, rfl⟩

/-- **The number is put together again.** -/
theorem getPtrFrom_pointerBytes {ctrl psize pointer : ℕ} (hfits : PointerFits psize pointer)
    (hholds : db.Holds offset (ByteOrder.big.encode psize (pointer - pointerBase psize)))
    (hctrl : ctrl &&& 7 = (pointer - pointerBase psize) / 256 ^ psize) :
    db.getPtrFrom ctrl offset psize = .ok pointer := by
  have hcontrol := PointerFits.control hfits
  have hone := hcontrol.one_le
  have hfour := hcontrol.le_four
  obtain rfl | rfl | rfl | rfl : psize = 1 ∨ psize = 2 ∨ psize = 3 ∨ psize = 4 := by omega
  · have hbytes : db.Holds offset [UInt8.ofNat pointer] := hholds
    simp only [getPtrFrom, hctrl, hbytes.byte, Checked.ok_bind, Checked.pure_eq, UInt8.toNat_ofNat',
      Nat.shiftLeft_eq, pointerBase]
    refine congrArg Except.ok ?_
    omega
  · simp only [PointerFits] at hfits
    have hbytes : db.Holds offset [UInt8.ofNat ((pointer - 2048) / 256),
        UInt8.ofNat (pointer - 2048)] :=
      hholds
    simp only [getPtrFrom, hctrl, hbytes.byte, hbytes.tail.byte, Checked.ok_bind, Checked.pure_eq,
      UInt8.toNat_ofNat', Nat.shiftLeft_eq, pointerBase]
    refine congrArg Except.ok ?_
    omega
  · simp only [PointerFits] at hfits
    simp only [getPtrFrom, hctrl, hholds.getUint24, Checked.ok_bind, Checked.pure_eq,
      Nat.shiftLeft_eq, pointerBase]
    refine congrArg Except.ok ?_
    omega
  · simp only [PointerFits] at hfits
    simp only [getPtrFrom, hholds.getUint32, pointerBase]
    refine congrArg Except.ok ?_
    omega

/-- An entry with the control byte of a pointer. -/
theorem PointerControl.decodeOne {ctrl psize high pointer : ℕ} (h : PointerControl ctrl psize high)
    (hbyte : db.content.byte offset = .ok ctrl) (hroom : offset + 1 + psize ≤ db.content.length)
    (hread : db.getPtrFrom ctrl (offset + 1) psize = .ok pointer) :
    db.decodeOne offset = .ok ⟨offset, .pointer pointer, offset + 1 + psize⟩ := by
  obtain ⟨-, htype, hsize, -⟩ := h.bits
  have hpsize : psize - 1 + 1 = psize := Nat.sub_add_cancel h.one_le
  have hcheck : ¬(sub32 db.content.length psize < offset + 1 ∨ db.content.length < psize) :=
    not_or.mpr ⟨not_sub32_lt hroom, by omega⟩
  have hpointer : db.decodePointer ctrl (offset + 1) =
      .ok (.pointer pointer, offset + 1 + psize) := by
    simp only [decodePointer, hsize, hpsize, if_neg hcheck, hread, Checked.ok_bind, Checked.pure_eq]
  have hpart : db.decodeType ctrl (offset + 1) = .ok (.pointer, offset + 1) := by
    simp only [DataSection.decodeType, htype]
    rfl
  have htyped : db.decodeTyped .pointer ctrl (offset + 1) =
      .ok (.pointer pointer, offset + 1 + psize) :=
    (if_pos rfl).trans hpointer
  rw [decodeOne_of_room (by omega), hbyte, Checked.ok_bind, hpart, Checked.ok_bind, htyped,
    Checked.ok_bind]

/-- **A pointer is read back.** -/
theorem PointerAt.decodeOne {pointer : ℕ} (h : db.PointerAt offset pointer next) :
    db.decodeOne offset = .ok ⟨offset, .pointer pointer, next⟩ := by
  obtain ⟨psize, hfits, hholds, rfl⟩ := h
  have hcontrol := PointerFits.control hfits
  obtain ⟨hlt, -, -, hhigh⟩ := hcontrol.bits
  rw [pointerBytes] at hholds
  have hroom := hholds.add_le (List.cons_ne_nil _ _)
  rw [List.length_cons, ByteOrder.length_encode] at hroom
  refine hcontrol.decodeOne ?_ (by omega) (getPtrFrom_pointerBytes hfits hholds.tail hhigh)
  rw [hholds.byte, UInt8.toNat_ofNat_of_lt' hlt]

/-! ### Finding what a path leads to -/

/-- What is known of the entry of a value that stands up to `next`: its data, and that what a map or
an array contains follows. -/
def Opens (db : DataSection) (height : ℕ) (e : EntryData) (v : Value) (next : ℕ) : Prop :=
  e.datum = v.datum ∧
    match v with
    | .map entries => Laid (db.EntryAt (db.StandsAt (height - 1))) e.offsetToNext entries next
    | .array items => Laid (db.FieldAt (db.StandsAt (height - 1))) e.offsetToNext items next
    | _ => e.offsetToNext = next

variable {height : ℕ} {v : Value}

theorem StandsAt.pos (h : db.StandsAt height offset v next) : 1 ≤ height := by
  cases height with
  | zero => exact h.elim
  | succ height => exact Nat.succ_pos height

/-- **The entry of a value is decoded where it stands.** -/
theorem StandsAt.decodeOne (h : db.StandsAt height offset v next) :
    ∃ e, db.decodeOne offset = .ok e ∧ db.Opens height e v next := by
  cases height with
  | zero => exact h.elim
  | succ height =>
    cases v with
    | map entries =>
      obtain ⟨inner, hcontrol, hentries⟩ := h
      exact ⟨_, hcontrol.decodeOne_map, rfl, hentries⟩
    | array items =>
      obtain ⟨inner, hcontrol, hitems⟩ := h
      exact ⟨_, hcontrol.decodeOne_array, rfl, hitems⟩
    | _ => exact ⟨_, ScalarAt.decodeOne h, rfl, rfl⟩

theorem datum_ne_pointer (v : Value) (pointer : ℕ) : v.datum ≠ .pointer pointer := by
  cases v <;> simp [Value.datum]

/-- What is decoded where there is no pointer. -/
theorem decodeOneFollow_of_value {e : EntryData} (h : db.decodeOne offset = .ok e)
    (hdatum : e.datum = v.datum) :
    db.decodeOneFollow offset = .ok e := by
  rw [decodeOneFollow, h, Checked.ok_bind]
  split
  · exact absurd (hdatum.symm.trans ‹_›) (datum_ne_pointer v _)
  · rfl

/-- What a pointer leads to: what follows is after the pointer, unless it is in a map or an
array. -/
theorem decodeOneFollow_of_pointer {pointer : ℕ} {e : EntryData}
    (h : db.PointerAt offset pointer next) (he : db.decodeOne pointer = .ok e)
    (hdatum : e.datum = v.datum) :
    db.decodeOneFollow offset = .ok (match v with
      | .map _ => e
      | .array _ => e
      | _ => { e with offsetToNext := next }) := by
  rw [decodeOneFollow, h.decodeOne, Checked.ok_bind]
  simp only [he, Checked.ok_bind, hdatum]
  cases v <;> rfl

/-- **A pointer is followed**, and what is found opens as if it stood there. -/
theorem FieldAt.decodeOneFollow (h : db.FieldAt (db.StandsAt height) offset v next) :
    ∃ e next', db.decodeOneFollow offset = .ok e ∧ db.Opens height e v next' := by
  rcases h with hhere | ⟨pointer, next', hpointer, hthere⟩
  · obtain ⟨e, he, hopens⟩ := StandsAt.decodeOne hhere
    exact ⟨e, next, decodeOneFollow_of_value he hopens.1, hopens⟩
  · obtain ⟨e, he, hopens⟩ := StandsAt.decodeOne hthere
    have hfollow := decodeOneFollow_of_pointer hpointer he hopens.1
    cases v with
    | map entries => exact ⟨_, next', hfollow, hopens⟩
    | array items => exact ⟨_, next', hfollow, hopens⟩
    | _ => exact ⟨_, next, hfollow, hopens.1, rfl⟩

/-- **A key is read**, and its value follows it. -/
theorem FieldAt.decodeOneFollow_key {key : Bytes}
    (h : db.FieldAt (fun offset key => db.ScalarAt offset (.utf8String key)) offset key next) :
    ∃ e, db.decodeOneFollow offset = .ok e ∧ e.datum = .utf8String key ∧ e.offsetToNext = next := by
  rcases h with hhere | ⟨pointer, next', hpointer, hthere⟩
  · exact ⟨_, decodeOneFollow_of_value (v := .utf8String key)
      (ScalarAt.decodeOne hhere) rfl, rfl, rfl⟩
  · exact ⟨_, decodeOneFollow_of_pointer (v := .utf8String key) hpointer
      (ScalarAt.decodeOne hthere) rfl, rfl, rfl⟩

/-- A key is decoded, whether it is a pointer or not. -/
theorem FieldAt.decodeOne_key {key : Bytes}
    (h : db.FieldAt (fun offset key => db.ScalarAt offset (.utf8String key)) offset key next) :
    ∃ e, db.decodeOne offset = .ok e ∧ e.offsetToNext = next := by
  rcases h with hhere | ⟨pointer, next', hpointer, -⟩
  · exact ⟨_, ScalarAt.decodeOne hhere, rfl⟩
  · exact ⟨_, hpointer.decodeOne, rfl⟩

theorem skipMapOrArray_pointer {left pointer : ℕ} {e : EntryData} (he : e.datum = .pointer pointer)
    (hleft : 1 ≤ left) :
    db.skipMapOrArray left e = .ok e := by
  obtain ⟨left, rfl⟩ := Nat.exists_eq_succ_of_ne_zero (Nat.one_le_iff_ne_zero.mp hleft)
  simp only [skipMapOrArray, he]

theorem FieldAt.pos (h : db.FieldAt (db.StandsAt height) offset v next) : 1 ≤ height := by
  rcases h with hhere | ⟨_, _, -, hthere⟩
  · exact StandsAt.pos hhere
  · exact StandsAt.pos hthere

/-- A value is skipped where those in it can be. -/
theorem FieldAt.skip {left : ℕ} (h : db.FieldAt (db.StandsAt height) offset v next)
    (hleft : height ≤ left) (hskip : ∀ e, db.Opens height e v next →
      ∃ e', db.skipMapOrArray left e = .ok e' ∧ e'.offsetToNext = next) :
    ∃ e, (db.decodeOne offset >>= db.skipMapOrArray left) = .ok e ∧ e.offsetToNext = next := by
  rcases h with hhere | ⟨pointer, next', hpointer, hthere⟩
  · obtain ⟨e, he, hopens⟩ := StandsAt.decodeOne hhere
    rw [he]
    exact hskip e hopens
  · rw [hpointer.decodeOne, Checked.ok_bind,
      skipMapOrArray_pointer rfl ((StandsAt.pos hthere).trans hleft)]
    exact ⟨_, rfl, rfl⟩

/-- **What a map or an array contains is skipped**, to where the next value
stands, if it is not too deep. -/
theorem Opens.skip {left : ℕ} {e : EntryData} (h : db.Opens height e v next) (hpos : 1 ≤ height)
    (hleft : height ≤ left) :
    ∃ e', db.skipMapOrArray left e = .ok e' ∧ e'.offsetToNext = next := by
  induction left generalizing height e v next with
  | zero => omega
  | succ left ih =>
    have hchild {mid mid' : ℕ} {w : Value} (hw : db.FieldAt (db.StandsAt (height - 1)) mid w mid') :
        ∃ e', (db.decodeOne mid >>= db.skipMapOrArray left) = .ok e' ∧ e'.offsetToNext = mid' := by
      exact FieldAt.skip hw (by omega) fun e he => ih he (FieldAt.pos hw) (by omega)
    obtain ⟨hdatum, hinside⟩ := h
    cases v with
    | map entries =>
      simp only [skipMapOrArray, hdatum, Value.datum]
      refine Checked.times_laid EntryData.offsetToNext (fun a entry after hentry => ?_) hinside
      obtain ⟨mid, hkey, hvalue⟩ := hentry
      obtain ⟨key, hkey, hmid⟩ := FieldAt.decodeOne_key hkey
      obtain ⟨e', he', hafter⟩ := hchild hvalue
      rw [hkey, Checked.ok_bind, hmid]
      exact ⟨e', he', hafter⟩
    | array items =>
      simp only [skipMapOrArray, hdatum, Value.datum]
      exact Checked.times_laid EntryData.offsetToNext
        (fun a item after hitem => hchild hitem) hinside
    | _ =>
      simp only [skipMapOrArray, hdatum, Value.datum]
      exact ⟨e, rfl, hinside⟩

/-- **The next value is skipped.** -/
theorem FieldAt.skipOne (h : db.FieldAt (db.StandsAt height) offset v next)
    (hheight : height ≤ maximumDataStructureDepth) :
    ∃ e, db.skipOne offset = .ok e ∧ e.offsetToNext = next := by
  exact FieldAt.skip h hheight fun e he => he.skip (FieldAt.pos h) hheight

/-- What a lookup found is what was looked for. -/
def Found (db : DataSection) (height : ℕ) (m : Decode EntryData) : Except MmdbError Value → Prop
  | .ok w => ∃ e next, m = .ok e ∧ db.Opens height e w next
  | .error err => m = Checked.stop err

/-- **A key is looked up in a map**: the first one that is the same, with the value after it. -/
theorem found_lookupPathInMap {entries : List (Bytes × Value)} (pathElem : Bytes)
    (h : Laid (db.EntryAt (db.StandsAt height)) offset entries next)
    (hheight : height ≤ maximumDataStructureDepth) :
    db.Found height (db.lookupPathInMap pathElem entries.length offset)
      (Value.child pathElem (.map entries)) := by
  induction entries generalizing offset with
  | nil => exact rfl
  | cons entry entries ih =>
    obtain ⟨after, ⟨mid, hkey, hvalue⟩, hentries⟩ := laid_cons.mp h
    obtain ⟨key, hread, hdatum, rfl⟩ := FieldAt.decodeOneFollow_key hkey
    rw [List.length_cons, lookupPathInMap, hread, Checked.ok_bind]
    simp only [hdatum]
    rcases eq_or_ne entry.1 pathElem with heq | hne
    · obtain ⟨e, next', he, hopens⟩ := FieldAt.decodeOneFollow hvalue
      rw [if_pos heq, Value.child, List.find?_cons_of_pos (by simpa using heq)]
      exact ⟨e, next', he, hopens⟩
    · obtain ⟨e, he, rfl⟩ := FieldAt.skipOne hvalue hheight
      have hrest := ih hentries
      rw [Value.child] at hrest
      rw [if_neg hne, he, Checked.ok_bind, Value.child, List.find?_cons_of_neg (by simpa using hne)]
      exact hrest

/-- **An index is looked up in an array**: the values before it are skipped. -/
theorem found_lookupPathInArray {items : List Value} (pathElem : Bytes) {e : EntryData}
    (h : Laid (db.FieldAt (db.StandsAt height)) e.offsetToNext items next)
    (hheight : height ≤ maximumDataStructureDepth) :
    db.Found height (db.lookupPathInArray pathElem items.length e)
      (Value.child pathElem (.array items)) := by
  simp only [lookupPathInArray, Value.child, Value.index]
  generalize hi : (if (strtoll pathElem).value < 0 then (strtoll pathElem).value + items.length
    else (strtoll pathElem).value) = i
  by_cases hrange : (strtoll pathElem).inRange = true
  · by_cases hgood : (strtoll pathElem).rest = [] ∧ 0 ≤ i ∧ i < items.length
    · -- the index is in the array
      obtain ⟨hrest, hzero, hlt⟩ := hgood
      have hlt' : i.toNat < items.length := by omega
      rw [← List.take_append_drop i.toNat items] at h
      obtain ⟨mid, hbefore, hfrom⟩ := h.split
      rw [List.drop_eq_getElem_cons hlt'] at hfrom
      obtain ⟨after, hitem, -⟩ := laid_cons.mp hfrom
      obtain ⟨last, hlast, rfl⟩ := Checked.times_laid EntryData.offsetToNext
        (fun a item after hitem => FieldAt.skipOne hitem hheight) hbefore
      rw [List.length_take_of_le hlt'.le] at hlast
      obtain ⟨e', next', he', hopens⟩ := FieldAt.decodeOneFollow hitem
      rw [if_neg (not_not.mpr hrange), if_neg (by omega), if_neg (by simp only [hrest]; simp [hlt]),
        hlast, Checked.ok_bind, if_neg (not_not.mpr hrange), if_pos ⟨hrest, hzero, hlt⟩]
      have hat : items[i.toNat]? = some items[i.toNat] := List.getElem?_eq_getElem hlt'
      simp only [bind, Except.bind, hat]
      exact ⟨e', next', he', hopens⟩
    · have hbad : i < 0 ∨ (strtoll pathElem).rest ≠ [] ∨ (items.length : ℤ) ≤ i := by
        by_contra hnot
        simp only [not_or, not_not, not_lt, not_le] at hnot
        exact hgood ⟨hnot.2.1, hnot.1, hnot.2.2⟩
      rw [if_neg (not_not.mpr hrange), if_neg (not_not.mpr hrange), if_neg hgood,
        ← ite_or, if_pos hbad]
      exact rfl
  · rw [if_pos hrange, if_pos hrange]
    exact rfl

/-- **A key or an index is looked up**, where there is a map or an array. -/
theorem found_lookupPath {e : EntryData} (pathElem : Bytes) (h : db.Opens height e v next)
    (hheight : height ≤ maximumDataStructureDepth) :
    db.Found (height - 1) (db.lookupPath pathElem e) (Value.child pathElem v) := by
  obtain ⟨hdatum, hinside⟩ := h
  cases v with
  | map entries =>
    simp only [lookupPath, hdatum, Value.datum]
    exact found_lookupPathInMap pathElem hinside (by omega)
  | array items =>
    simp only [lookupPath, hdatum, Value.datum]
    exact found_lookupPathInArray pathElem hinside (by omega)
  | _ =>
    simp only [lookupPath, hdatum, Value.datum]
    exact rfl

/-- **A path is followed**, from what is found to what is found in it. -/
theorem found_lookupPaths {e : EntryData} (path : List Bytes) (h : db.Opens height e v next)
    (hheight : height ≤ maximumDataStructureDepth) :
    (db.lookupPaths path e).map EntryData.datum =
      Checked.lift ((Value.follow path v).map Value.datum) := by
  induction path generalizing height v e next with
  | nil => exact congrArg Except.ok h.1
  | cons pathElem path ih =>
    have hfound := found_lookupPath pathElem h hheight
    rw [lookupPaths, Value.follow]
    cases hchild : Value.child pathElem v with
    | ok w =>
      rw [hchild] at hfound
      obtain ⟨e', next', he', hopens⟩ := hfound
      rw [he', Checked.ok_bind]
      exact ih hopens (by omega)
    | error err =>
      rw [hchild] at hfound
      have hstop : db.lookupPath pathElem e = Checked.stop err := hfound
      rw [hstop]
      rfl

/-- What `MMDB_aget_value` finds where a value stands. -/
theorem map_datum_getValue (path : List Bytes) (h : db.FieldAt (db.StandsAt height) offset v next)
    (hheight : height ≤ maximumDataStructureDepth) :
    (db.getValue offset path).map EntryData.datum =
      Checked.lift ((Value.follow path v).map Value.datum) := by
  obtain ⟨e, next', he, hopens⟩ := FieldAt.decodeOneFollow h
  rw [getValue, he, Checked.ok_bind]
  exact found_lookupPaths path hopens hheight

/-- **A path of keys and indices leads to the value it should**: where a value stands, no deeper
than the depth the library goes to, `MMDB_aget_value` finds what the path leads to, and reports an
error exactly where it leads nowhere. -/
theorem getValue_follow (path : List Bytes) (h : db.FieldAt (db.StandsAt height) offset v next)
    (hheight : height ≤ maximumDataStructureDepth) :
    (∀ datum, (∃ e, db.getValue offset path = .ok e ∧ e.datum = datum) ↔
      ∃ w, Value.follow path v = .ok w ∧ w.datum = datum) ∧
    ∀ err, db.getValue offset path = Checked.stop err ↔ Value.follow path v = .error err := by
  have hmap := map_datum_getValue path h hheight
  cases hvalue : db.getValue offset path with
  | ok e =>
    cases hfollow : Value.follow path v with
    | ok w =>
      rw [hvalue, hfollow] at hmap
      have hdatum : e.datum = w.datum := Except.ok.inj hmap
      simp [Checked.stop, hdatum]
    | error err =>
      rw [hvalue, hfollow] at hmap
      cases hmap
  | error halt =>
    cases hfollow : Value.follow path v with
    | ok w =>
      rw [hvalue, hfollow] at hmap
      cases hmap
    | error err =>
      rw [hvalue, hfollow] at hmap
      obtain rfl : halt = .error err := Except.error.inj hmap
      simp [Checked.stop]

/-- A section with one value: the country of a network, behind a pointer. -/
def countrySection : DataSection where
  content := [0xe1, 0x47] ++ text "country" ++ [0x20, 0x0b] ++ [0xe1, 0x48] ++ text "iso_code" ++
    [0x42] ++ text "cn"
  size_lt := by decide

/-- The value in it. -/
def countryValue : Value :=
    .map [(text "country", .map [(text "iso_code", .utf8String (text "cn"))])]

theorem countryValue_standsAt : countrySection.StandsAt 3 0 countryValue 11 := by
  have hcode : countrySection.ScalarAt 21 (.utf8String (text "cn")) 24 :=
    ⟨_, _, _, 22, .utf8String _, ⟨⟨[99, 110], rfl⟩, by decide, rfl⟩, ⟨[], rfl⟩, rfl⟩
  have hkey : countrySection.ScalarAt 12 (.utf8String (text "iso_code")) 21 :=
    ⟨_, _, _, 13, .utf8String _, ⟨⟨_, rfl⟩, by decide, rfl⟩, ⟨_, rfl⟩, rfl⟩
  have hinner : countrySection.StandsAt 2 11
      (.map [(text "iso_code", .utf8String (text "cn"))]) 24 :=
    ⟨12, ⟨⟨_, rfl⟩, by decide, rfl⟩, .cons ⟨21, Or.inl hkey, Or.inl hcode⟩ .nil⟩
  have hpointer : countrySection.PointerAt 9 11 11 := ⟨1, show 11 < 2048 by decide, ⟨_, rfl⟩, rfl⟩
  have hcountry : countrySection.ScalarAt 1 (.utf8String (text "country")) 9 :=
    ⟨_, _, _, 2, .utf8String _, ⟨⟨_, rfl⟩, by decide, rfl⟩, ⟨_, rfl⟩, rfl⟩
  exact ⟨1, ⟨⟨_, rfl⟩, by decide, rfl⟩,
    .cons ⟨9, Or.inl hcountry, Or.inr ⟨11, 24, hpointer, hinner⟩⟩ .nil⟩

theorem getValue_follow_country :
    ∃ e, countrySection.getValue 0 [text "country", text "iso_code"] = .ok e ∧
      e.datum = .utf8String (text "cn") :=
  ((getValue_follow [text "country", text "iso_code"] (Or.inl countryValue_standsAt) (by decide)).1
    _).mpr ⟨_, rfl, rfl⟩

end DataSection

end IpRouter.MaxMindDb
