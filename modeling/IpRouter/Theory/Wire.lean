import IpRouter.Theory.Text
import Mathlib.Algebra.Group.Int.Defs
import Mathlib.Algebra.Group.Nat.Defs

/-!
# Numbers and fields in memory

A machine keeps a number in bytes, the least significant first or last
(`ByteOrder`). A `Buffer` is a piece of memory a program was given, with what
stands in memory after it: a program that reads on past the end gets that, and one
that writes on past it changes that. `Buffer.Holds` is how a proof knows what a read
gives: by what the content looks like from there on. `Buffer.holds_write` and
`Buffer.Holds.write` say what it looks like after a write.
-/

namespace IpRouter.Theory

/-- The order in which a machine keeps the bytes of a number. -/
inductive ByteOrder where
  /-- The least significant byte first. -/
  | little
  /-- The least significant byte last. -/
  | big
  deriving DecidableEq

/-- The number with these bytes, the least significant first. -/
def ofLittle : Bytes → ℕ
  | [] => 0
  | b :: bytes => b.toNat + 256 * ofLittle bytes

/-- The bytes of a number, the least significant first. -/
def toLittle : ℕ → ℕ → Bytes
  | 0, _ => []
  | width + 1, n => UInt8.ofNat n :: toLittle width (n / 256)

@[simp] theorem length_toLittle (width n : ℕ) : (toLittle width n).length = width := by
  induction width generalizing n with
  | zero => rfl
  | succ width ih => rw [toLittle, List.length_cons, ih]

theorem ofLittle_toLittle {width n : ℕ} (h : n < 256 ^ width) :
    ofLittle (toLittle width n) = n := by
  induction width generalizing n with
  | zero =>
    rw [Nat.pow_zero] at h
    exact (Nat.lt_one_iff.mp h).symm
  | succ width ih =>
    have hrest : n / 256 < 256 ^ width :=
      Nat.div_lt_of_lt_mul (by rwa [Nat.pow_succ, Nat.mul_comm] at h)
    rw [toLittle, ofLittle, ih hrest, UInt8.toNat_ofNat']
    omega

theorem ofLittle_append_singleton (bytes : Bytes) (byte : UInt8) :
    ofLittle (bytes ++ [byte]) = ofLittle bytes + 256 ^ bytes.length * byte.toNat := by
  induction bytes with
  | nil => simp [ofLittle]
  | cons b bytes ih =>
    rw [List.cons_append, ofLittle, ih, ofLittle, List.length_cons, Nat.pow_succ, Nat.mul_add,
      Nat.mul_comm (256 ^ _) 256, Nat.mul_assoc, Nat.add_assoc]

namespace ByteOrder

/-- The number these bytes hold. -/
def decode : ByteOrder → Bytes → ℕ
  | .little, bytes => ofLittle bytes
  | .big, bytes => ofLittle bytes.reverse

/-- The bytes that hold a number. -/
def encode : ByteOrder → ℕ → ℕ → Bytes
  | .little, width, n => toLittle width n
  | .big, width, n => (toLittle width n).reverse

@[simp] theorem length_encode (order : ByteOrder) (width n : ℕ) :
    (order.encode width n).length = width := by
  cases order <;> simp [encode]

/-- A number that fits is read back. -/
theorem decode_encode (order : ByteOrder) {width n : ℕ} (h : n < 256 ^ width) :
    order.decode (order.encode width n) = n := by
  cases order <;> simp [decode, encode, ofLittle_toLittle h]

@[simp] theorem decode_nil (order : ByteOrder) : order.decode [] = 0 := by cases order <;> rfl

/-- The number after one more byte in front. -/
theorem decode_big_cons (byte : UInt8) (bytes : Bytes) :
    ByteOrder.big.decode (byte :: bytes) = byte.toNat * 256 ^ bytes.length +
      ByteOrder.big.decode bytes := by
  simp only [decode, List.reverse_cons, ofLittle_append_singleton, List.length_reverse]
  rw [Nat.add_comm, Nat.mul_comm]

theorem decode_big_lt (bytes : Bytes) : ByteOrder.big.decode bytes < 256 ^ bytes.length := by
  induction bytes with
  | nil => simp
  | cons byte bytes ih =>
    have hbyte := byte.toNat_lt
    calc ByteOrder.big.decode (byte :: bytes)
        = byte.toNat * 256 ^ bytes.length + ByteOrder.big.decode bytes := decode_big_cons byte bytes
      _ < byte.toNat * 256 ^ bytes.length + 256 ^ bytes.length := Nat.add_lt_add_left ih _
      _ = (byte.toNat + 1) * 256 ^ bytes.length := (Nat.succ_mul _ _).symm
      _ ≤ 256 * 256 ^ bytes.length := Nat.mul_le_mul_right _ hbyte
      _ = 256 ^ (byte :: bytes).length := by rw [List.length_cons, Nat.pow_succ, Nat.mul_comm]

/-- A byte is the same in either order. -/
@[simp] theorem decode_singleton (order : ByteOrder) (byte : UInt8) :
    order.decode [byte] = byte.toNat := by
  cases order <;> simp [decode, ofLittle]

end ByteOrder

/-! ### Memory -/

/-- A piece of memory. -/
structure Buffer where
  /-- The order in which the machine keeps the bytes of a number. -/
  order : ByteOrder
  /-- The bytes. -/
  content : Bytes
  /-- What stands after them. -/
  beyond : ℕ → UInt8

namespace Buffer

/-- The byte at an offset. -/
def byte (b : Buffer) (offset : ℕ) : UInt8 :=
  b.content.getD offset (b.beyond (offset - b.content.length))

/-- The bytes from an offset on. -/
def read (b : Buffer) (offset size : ℕ) : Bytes :=
  (List.range size).map fun i => b.byte (offset + i)

/-- The number at an offset. -/
def field (b : Buffer) (offset size : ℕ) : ℕ := b.order.decode (b.read offset size)

/-- The bytes stand at the offset. -/
def Holds (b : Buffer) (offset : ℕ) (bytes : Bytes) : Prop := bytes <+: b.content.drop offset

variable {b : Buffer} {offset : ℕ} {bytes bytes' : Bytes}

theorem holds_zero (b : Buffer) : b.Holds 0 b.content := by simp [Holds]

theorem Holds.left (h : b.Holds offset (bytes ++ bytes')) : b.Holds offset bytes :=
  (List.prefix_append bytes bytes').trans h

theorem Holds.right (h : b.Holds offset (bytes ++ bytes')) :
    b.Holds (offset + bytes.length) bytes' := by
  obtain ⟨rest, hrest⟩ := h
  refine ⟨rest, ?_⟩
  rw [← List.drop_drop, ← hrest, List.append_assoc, List.drop_left]

theorem Holds.length_le (h : b.Holds offset bytes) : bytes.length ≤ b.content.length := by
  have hle := List.IsPrefix.length_le h
  rw [List.length_drop] at hle
  omega

/-- **What stands at an offset is read there.** -/
theorem Holds.read (h : b.Holds offset bytes) : b.read offset bytes.length = bytes := by
  obtain ⟨rest, hrest⟩ := h
  refine List.ext_getElem (by simp [Buffer.read]) fun i _ hi => ?_
  have hat : b.content[offset + i]? = some bytes[i] := by
    rw [← List.getElem?_drop, ← hrest, List.getElem?_append_left hi, List.getElem?_eq_getElem hi]
  simp [Buffer.read, byte, List.getD_eq_getElem?_getD, hat]

/-- The beginning of what stands at an offset. -/
theorem Holds.read_take (h : b.Holds offset bytes) {size : ℕ} (hsize : size ≤ bytes.length) :
    b.read offset size = bytes.take size := by
  have hleft : b.Holds offset (bytes.take size) := (List.take_prefix size bytes).trans h
  have hread := hleft.read
  rwa [List.length_take_of_le hsize] at hread

theorem Holds.drop (h : b.Holds offset bytes) {i : ℕ} (hi : i ≤ bytes.length) :
    b.Holds (offset + i) (bytes.drop i) := by
  rw [← List.take_append_drop i bytes] at h
  have hright := h.right
  rwa [List.length_take_of_le hi] at hright

/-- One of the bytes that stand at an offset. -/
theorem Holds.byte_field (h : b.Holds offset bytes) {i : ℕ} (hi : i < bytes.length) :
    b.field (offset + i) 1 = bytes[i].toNat := by
  have hat := h.drop hi.le
  rw [List.drop_eq_getElem_cons hi] at hat
  have hread : b.read (offset + i) 1 = _ := hat.read_take (by rw [List.length_cons]; omega)
  rw [Buffer.field, hread, List.take_succ_cons, List.take_zero, ByteOrder.decode_singleton]

/-- A number that stands at an offset is read there. -/
theorem Holds.field {width n : ℕ} (h : b.Holds offset (b.order.encode width n))
    (hn : n < 256 ^ width) :
    b.field offset width = n := by
  have hread := h.read
  rw [ByteOrder.length_encode] at hread
  rw [Buffer.field, hread, ByteOrder.decode_encode _ hn]

theorem Holds.append (h : b.Holds offset bytes) (h' : b.Holds (offset + bytes.length) bytes') :
    b.Holds offset (bytes ++ bytes') := by
  obtain ⟨rest, hrest⟩ := h
  rw [Holds, ← List.drop_drop, ← hrest, List.drop_left] at h'
  rw [Holds, ← hrest]
  exact (List.prefix_append_right_inj bytes).mpr h'

/-- What stands at an offset, with more of what follows. -/
theorem Holds.extend (h : b.Holds offset bytes) {size : ℕ} (hsize : bytes.length ≤ size)
    (hroom : offset + size ≤ b.content.length) :
    ∃ rest, bytes.length + rest.length = size ∧ b.Holds offset (bytes ++ rest) := by
  refine ⟨(b.content.drop (offset + bytes.length)).take (size - bytes.length), ?_,
    h.append (List.take_prefix _ _)⟩
  rw [List.length_take, List.length_drop]
  omega

theorem holds_iff : b.Holds offset bytes ↔
    ∀ i (hi : i < bytes.length), b.content[offset + i]? = some bytes[i] := by
  rw [Holds, List.prefix_iff_getElem?]
  simp only [List.getElem?_drop]

/-! ### Writing -/

/-- The byte at an index, once `bytes` are written from `offset` on. -/
def overwrite (offset : ℕ) (bytes : Bytes) (i : ℕ) (old : UInt8) : UInt8 :=
  if i < offset then old else bytes.getD (i - offset) old

theorem overwrite_beside {i : ℕ} (h : i < offset ∨ offset + bytes.length ≤ i) (old : UInt8) :
    overwrite offset bytes i old = old := by
  rw [overwrite]
  split_ifs with hbefore
  · rfl
  · rw [List.getD_eq_getElem?_getD, List.getElem?_eq_none (by omega), Option.getD_none]

/-- Write bytes at an offset: what goes past the end changes what stands there. -/
def write (b : Buffer) (offset : ℕ) (bytes : Bytes) : Buffer where
  order := b.order
  content := b.content.mapIdx (overwrite offset bytes)
  beyond i := overwrite offset bytes (b.content.length + i) (b.beyond i)

/-- Write a number at an offset. -/
def writeNumber (b : Buffer) (offset size n : ℕ) : Buffer := b.write offset (b.order.encode size n)

@[simp] theorem order_write (b : Buffer) (offset : ℕ) (bytes : Bytes) :
    (b.write offset bytes).order = b.order :=
  rfl

@[simp] theorem length_write (b : Buffer) (offset : ℕ) (bytes : Bytes) :
    (b.write offset bytes).content.length = b.content.length :=
  List.length_mapIdx

/-- What is written in the buffer stands there. -/
theorem holds_write (hfits : offset + bytes.length ≤ b.content.length) :
    (b.write offset bytes).Holds offset bytes := by
  refine holds_iff.mpr fun i hi => ?_
  have hin : offset + i < b.content.length := by omega
  simp [write, overwrite, List.getElem?_eq_getElem hin, hi]

@[simp] theorem length_writeNumber (b : Buffer) (offset size n : ℕ) :
    (b.writeNumber offset size n).content.length = b.content.length :=
  length_write _ _ _

/-- A number that is written in the buffer is read. -/
theorem field_writeNumber {size n : ℕ} (hfits : offset + size ≤ b.content.length)
    (hn : n < 256 ^ size) :
    (b.writeNumber offset size n).field offset size = n := by
  have hholds : (b.writeNumber offset size n).Holds offset (b.order.encode size n) :=
    holds_write (by rwa [ByteOrder.length_encode])
  exact hholds.field hn

/-- What stands beside the bytes that are written stays. -/
theorem Holds.write (h : b.Holds offset bytes) {start : ℕ} {written : Bytes}
    (hbeside : offset + bytes.length ≤ start ∨ start + written.length ≤ offset) :
    (b.write start written).Holds offset bytes := by
  refine holds_iff.mpr fun i hi => ?_
  have hat := holds_iff.mp h i hi
  have hsame : overwrite start written (offset + i) bytes[i] = bytes[i] :=
    overwrite_beside (by omega) _
  simp [Buffer.write, hat, hsame]

/-- A write in the buffer changes nothing after it. -/
theorem beyond_write (hfits : offset + bytes.length ≤ b.content.length) :
    (b.write offset bytes).beyond = b.beyond := by
  funext i
  exact overwrite_beside (Or.inr (by omega)) _

end Buffer

/-! ### What a program reads -/

/-- A field that is read. -/
structure Read where
  /-- Where it begins. -/
  offset : ℕ
  /-- Its bytes. -/
  size : ℕ
  deriving DecidableEq

/-- What a program finds in memory, with what it reads. -/
structure Reading (α : Type) where
  /-- The fields it reads, in order. -/
  reads : List Read
  /-- What it finds. -/
  value : α

namespace Reading

variable {α β : Type}

instance : Monad Reading where
  pure a := ⟨[], a⟩
  bind x f := ⟨x.reads ++ (f x.value).reads, (f x.value).value⟩

@[simp] theorem reads_pure (a : α) : (pure a : Reading α).reads = [] := rfl

@[simp] theorem value_pure (a : α) : (pure a : Reading α).value = a := rfl

@[simp] theorem reads_bind (x : Reading α) (f : α → Reading β) :
    (x >>= f).reads = x.reads ++ (f x.value).reads := rfl

@[simp] theorem value_bind (x : Reading α) (f : α → Reading β) :
    (x >>= f).value = (f x.value).value :=
  rfl

/-- What follows only depends on what was found. -/
theorem bind_congr {x : Reading α} {f g : α → Reading β} (h : f x.value = g x.value) :
    x >>= f = x >>= g :=
  congrArg (fun y : Reading β => Reading.mk (x.reads ++ y.reads) y.value) h

/-- Everything is read between two offsets. -/
def Within (lo hi : ℕ) (x : Reading α) : Prop :=
  ∀ r ∈ x.reads, lo ≤ r.offset ∧ r.offset + r.size ≤ hi

theorem within_pure (lo hi : ℕ) (a : α) : Within lo hi (pure a : Reading α) :=
  fun _ hr => by cases hr

theorem Within.bind {lo hi : ℕ} {x : Reading α} {f : α → Reading β} (hx : x.Within lo hi)
    (hf : (f x.value).Within lo hi) :
    (x >>= f).Within lo hi := by
  intro r hr
  rcases List.mem_append.mp hr with hr | hr
  · exact hx r hr
  · exact hf r hr

end Reading

namespace Buffer

/-- Read the number at an offset. -/
def readNumber (b : Buffer) (offset size : ℕ) : Reading ℕ := ⟨[⟨offset, size⟩], b.field offset size⟩

/-- Read the bytes at an offset. -/
def readBytes (b : Buffer) (offset size : ℕ) : Reading Bytes :=
  ⟨[⟨offset, size⟩], b.read offset size⟩

@[simp] theorem value_readNumber (b : Buffer) (offset size : ℕ) :
    (b.readNumber offset size).value = b.field offset size :=
  rfl

@[simp] theorem value_readBytes (b : Buffer) (offset size : ℕ) :
    (b.readBytes offset size).value = b.read offset size :=
  rfl

theorem within_readNumber {lo hi offset size : ℕ} (b : Buffer) (hlo : lo ≤ offset)
    (hhi : offset + size ≤ hi) :
    (b.readNumber offset size).Within lo hi := by
  intro r hr
  obtain rfl := List.mem_singleton.mp hr
  exact ⟨hlo, hhi⟩

theorem within_readBytes {lo hi offset size : ℕ} (b : Buffer) (hlo : lo ≤ offset)
    (hhi : offset + size ≤ hi) :
    (b.readBytes offset size).Within lo hi := by
  intro r hr
  obtain rfl := List.mem_singleton.mp hr
  exact ⟨hlo, hhi⟩

end Buffer

end IpRouter.Theory
