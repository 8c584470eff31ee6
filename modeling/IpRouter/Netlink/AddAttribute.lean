import IpRouter.Netlink.RouteDump

/-!
# Adding attributes to a request

`add_attribute` puts an attribute after those that a message has and raises the
length of the message by the padded size, unless that does not fit the buffer.
`visited` is what the loop of `list_system_routes` finds in such a message, and
`ReadsBack` says of some calls, one after the other, that it finds what was added.
Which attributes fit is a matter of their sizes (`kept`).

`RTA_ALIGN` of a `size_t` keeps the low 32 bits only. So `add_attribute` takes an
attribute whose size is small modulo 2 ^ 32 for a small one, and writes past the
buffer. And a type goes into 16 bits. `readsBack_iff` says that nothing else goes
wrong: the calls read back exactly if what is given to each can be stored
(`Storable`).
-/

namespace IpRouter.Netlink

open Theory

/-! ### The calls -/

/-- `RTA_LENGTH(length)`, on `size_t`. -/
def rtaLength (length : ℕ) : ℕ := (rtattrSize + length) % 2 ^ 64

/-- `RTA_ALIGN(len)`, on `size_t`: the mask is an `unsigned int`, and clears the high
32 bits with the low two. -/
def rtaAlign (len : ℕ) : ℕ := (len + 3) % 2 ^ 32 / 4 * 4

/-- `add_attribute`, on a message that begins a buffer: what it returns, and the buffer. -/
def addAttribute (b : Buffer) (capacity : ℕ) (type : ℤ) (data : Bytes) : Bool × Buffer :=
  let attributeLength := rtaLength data.length
  let messageLength := nlmsgAlign (nlmsgLen b 0)
  if capacity < messageLength + rtaAlign attributeLength then (false, b)
  else
    let rta := messageLength
    -- both fields are 16 bits wide
    let typed := b.writeNumber (rta + 2) 2 (type % 2 ^ 16).toNat
    let measured := typed.writeNumber rta 2 (attributeLength % 2 ^ 16)
    let filled := measured.write (rtaData rta) data
    (true, filled.writeNumber 0 4 ((messageLength + rtaAlign attributeLength) % 2 ^ 32))

/-- A type and a payload. -/
structure NewAttribute where
  /-- The type, an `int`. -/
  type : ℤ
  /-- The payload. -/
  data : Bytes
  deriving DecidableEq

/-- A call of `add_attribute`, after calls that have added some attributes. -/
def addNext (capacity : ℕ) (s : List NewAttribute × Buffer) (a : NewAttribute) :
    List NewAttribute × Buffer :=
  match addAttribute s.2 capacity a.type a.data with
  | (true, b) => (s.1 ++ [a], b)
  | (false, b) => (s.1, b)

/-- One call of `add_attribute` after the other: what was added, and the buffer. -/
def addAttributes (capacity : ℕ) (b : Buffer) (calls : List NewAttribute) :
    List NewAttribute × Buffer :=
  calls.foldl (addNext capacity) ([], b)

/-- What the loop over the attributes of a route finds at one of them. -/
def visit (b : Buffer) (found : List NewAttribute) (rta : ℕ) : Round (List NewAttribute) Empty :=
  .next (found ++ [⟨rtaType b rta, b.read (rtaData rta) (rtaPayload b rta)⟩])

/-- What the loop of `list_system_routes` finds in the message that begins a buffer. -/
def visited (b : Buffer) : List NewAttribute :=
  (attributes.walk b (visit b) (rtmRta (nlmsgData 0)) (rtmPayload b 0) []).state

/-- `NLMSG_LENGTH(sizeof(struct rtmsg))`. -/
def emptyLength : ℕ := nlmsghdrSize + rtmsgSize

/-- The size of an attribute with its header and its padding. -/
def NewAttribute.size (a : NewAttribute) : ℕ := roundUp 4 (rtattrSize + a.data.length)

/-- A message without attributes, in a buffer of that capacity. -/
structure Fresh (capacity : ℕ) (b : Buffer) : Prop where
  /-- There is room for the message. -/
  least : emptyLength ≤ capacity
  /-- The lengths fit 16 bits. -/
  most : capacity ≤ 65535
  /-- The buffer has the capacity. -/
  room : capacity ≤ b.content.length
  /-- The message has no attributes. -/
  empty : nlmsgLen b 0 = emptyLength

/-- **The attributes read back as they were written.** -/
structure ReadsBack (capacity : ℕ) (b : Buffer) (calls : List NewAttribute) : Prop where
  /-- The message never outgrows the buffer. -/
  bounded : ∀ i ≤ calls.length, nlmsgLen (addAttributes capacity b (calls.take i)).2 0 ≤ capacity
  /-- A call fails exactly if the attribute does not fit with its padding. -/
  refused : ∀ i (_ : i < calls.length), let message := (addAttributes capacity b (calls.take i)).2
    (addAttribute message capacity calls[i].type calls[i].data).1 = false ↔
      capacity < nlmsgAlign (nlmsgLen message 0) + calls[i].size
  /-- A call that fails changes nothing. -/
  unchanged : ∀ i (_ : i < calls.length), let message := (addAttributes capacity b (calls.take i)).2
    (addAttribute message capacity calls[i].type calls[i].data).1 = false →
      (addAttribute message capacity calls[i].type calls[i].data).2 = message
  /-- The loop finds what was added, in that order. -/
  visited : visited (addAttributes capacity b calls).2 = (addAttributes capacity b calls).1

/-! ### What fits -/

/-- The length of a message with some attributes. -/
def total (as : List NewAttribute) : ℕ := as.foldl (fun length a => length + a.size) emptyLength

/-- Keep an attribute if it fits. -/
def keep (capacity : ℕ) (kept : List NewAttribute) (a : NewAttribute) : List NewAttribute :=
  if total kept + a.size ≤ capacity then kept ++ [a] else kept

/-- Which of the attributes fit, one after the other. -/
def kept (capacity : ℕ) (calls : List NewAttribute) : List NewAttribute :=
  calls.foldl (keep capacity) []

/-- An attribute that does not fit does not fit modulo 2 ^ 32 either. -/
def Measured (capacity : ℕ) (before : List NewAttribute) (a : NewAttribute) : Prop :=
  capacity < total before + a.size → capacity < total before + a.size % 2 ^ 32

instance (capacity : ℕ) (before : List NewAttribute) (a : NewAttribute) :
    Decidable (Measured capacity before a) :=
  inferInstanceAs (Decidable (_ → _))

/-- **What is given can be stored**, after other attributes: if it fits the buffer its type fits 16
bits, and if it does not fit it does not modulo 2 ^ 32 either. -/
def Storable (capacity : ℕ) (before : List NewAttribute) (a : NewAttribute) : Prop :=
  (total before + a.size ≤ capacity → 0 ≤ a.type ∧ a.type < 2 ^ 16) ∧ Measured capacity before a

instance (capacity : ℕ) (before : List NewAttribute) (a : NewAttribute) :
    Decidable (Storable capacity before a) :=
  inferInstanceAs (Decidable (_ ∧ _))

/-- The attribute that is stored for what is given. -/
def NewAttribute.stored (a : NewAttribute) : Attribute :=
  ⟨UInt16.ofNat (a.type % 2 ^ 16).toNat, a.data⟩

theorem four_dvd_size (a : NewAttribute) : 4 ∣ a.size := dvd_roundUp 4 _

theorem le_size (a : NewAttribute) : rtattrSize + a.data.length ≤ a.size := le_roundUp (by decide) _

/-- `RTA_ALIGN` is the size modulo 2 ^ 32. -/
theorem rtaAlign_rtaLength (a : NewAttribute) :
    rtaAlign (rtaLength a.data.length) = a.size % 2 ^ 32 := by
  simp only [rtaAlign, rtaLength, NewAttribute.size, roundUp]
  omega

theorem toNat_stored_type (a : NewAttribute) : a.stored.type.toNat = (a.type % 2 ^ 16).toNat := by
  simp only [NewAttribute.stored, UInt16.toNat_ofNat']
  omega

/-- A type is stored as it is exactly if it fits 16 bits. -/
theorem stored_eq_iff (a : NewAttribute) :
    (⟨a.stored.type.toNat, a.stored.data⟩ : NewAttribute) = a ↔ 0 ≤ a.type ∧ a.type < 2 ^ 16 := by
  rw [toNat_stored_type]
  constructor
  · intro h
    have htype := congrArg NewAttribute.type h
    dsimp only at htype
    omega
  · intro h
    have htype : (((a.type % 2 ^ 16).toNat : ℕ) : ℤ) = a.type := by omega
    rw [htype]
    rfl

/-- A stored attribute, in memory. -/
theorem length_stored (a : NewAttribute) (order : ByteOrder) :
    (a.stored.bytes order).length = rtattrSize + a.data.length := by
  simp only [Attribute.bytes, NewAttribute.stored, List.length_append,
    ByteOrder.length_encode, rtattrSize]
  omega

/-! ### A message with attributes -/

/-- **The message that begins a buffer has these attributes and that length.** -/
structure Carries (capacity : ℕ) (b : Buffer) (as : List Attribute) (length : ℕ) : Prop where
  /-- The lengths fit 16 bits. -/
  most : capacity ≤ 65535
  /-- The buffer has the capacity. -/
  room : capacity ≤ b.content.length
  /-- `nlmsg_len`. -/
  len : nlmsgLen b 0 = length
  /-- The message lies in the buffer. -/
  fits : length ≤ capacity
  /-- The attributes stand after the headers, with their padding. -/
  packed : ∃ bytes, length = emptyLength + bytes.length ∧ 4 ∣ bytes.length ∧
    Packed 4 (Attribute.Encodes b.order) as bytes ∧ b.Holds emptyLength bytes

variable {capacity length : ℕ} {b : Buffer} {as : List Attribute} {a : NewAttribute}

theorem Fresh.carries (h : Fresh capacity b) : Carries capacity b [] emptyLength :=
  ⟨h.most, h.room, h.empty, h.least, [], rfl, Nat.dvd_zero 4, .nil, List.nil_prefix⟩

theorem Carries.aligned (h : Carries capacity b as length) :
    nlmsgAlign (nlmsgLen b 0) = length := by
  obtain ⟨bytes, hlength, hdvd, -, -⟩ := h.packed
  have hmost := h.fits.trans h.most
  rw [h.len, nlmsgAlign_eq (by omega)]
  simp only [emptyLength, nlmsghdrSize, rtmsgSize] at hlength
  omega

/-- **The loop finds the attributes.** -/
theorem Carries.visited (h : Carries capacity b as length) :
    visited b = as.map fun a => ⟨a.type.toNat, a.data⟩ := by
  obtain ⟨bytes, hlength, -, hpacked, hholds⟩ := h.packed
  have hbody : ∀ a ∈ as, ∀ item rta found, a.Encodes b.order item → b.Holds rta item →
      visit b found rta = .next (found ++ [⟨a.type.toNat, a.data⟩]) := by
    intro a _ item rta found henc hat
    obtain ⟨htype, hpayload, hdata⟩ := attribute_read henc hat
    rw [visit, htype, hpayload, hdata.read]
  have hpayload : rtmPayload b 0 = bytes.length := by
    have hmost := h.fits.trans h.most
    rw [rtmPayload, h.len, hlength, emptyLength, nlmsghdrSize, rtmsgSize, toSigned]
    split_ifs <;> omega
  have hstart : rtmRta (nlmsgData 0) = emptyLength := rfl
  rw [Netlink.visited, hpayload, hstart, walk_all (attributes_framed b) hbody hpacked hholds,
    Round.state, List.foldl_append_eq_append, List.nil_append, ← List.flatMap_def,
    ← List.map_eq_flatMap]

/-! ### A call -/

theorem addAttribute_refused (h : Carries capacity b as length)
    (hlarge : capacity < length + a.size % 2 ^ 32) :
    addAttribute b capacity a.type a.data = (false, b) := by
  rw [addAttribute, h.aligned, rtaAlign_rtaLength, if_pos hlarge]

theorem addAttribute_accepted (h : Carries capacity b as length)
    (hsmall : length + a.size % 2 ^ 32 ≤ capacity) :
    (addAttribute b capacity a.type a.data).1 = true := by
  rw [addAttribute, h.aligned, rtaAlign_rtaLength, if_neg hsmall.not_gt]

/-- What a call does to the buffer if the attribute fits. -/
theorem addAttribute_fits (h : Carries capacity b as length) (hfits : length + a.size ≤ capacity) :
    addAttribute b capacity a.type a.data =
      (true, (((b.writeNumber (length + 2) 2 a.stored.type.toNat).writeNumber length 2
        (rtattrSize + a.data.length)).write
        (rtaData length) a.data).writeNumber 0 4 (length + a.size)) := by
  have hmost := hfits.trans h.most
  have hle := le_size a
  have hsize : a.size % 2 ^ 32 = a.size := Nat.mod_eq_of_lt (by omega)
  have hlen : rtaLength a.data.length % 2 ^ 16 = rtattrSize + a.data.length := by
    rw [rtaLength]
    omega
  have hnlmsg : (length + a.size) % 2 ^ 32 = length + a.size := Nat.mod_eq_of_lt (by omega)
  rw [addAttribute, h.aligned, rtaAlign_rtaLength, hsize, if_neg hfits.not_gt, hlen, hnlmsg,
    toNat_stored_type]

/-- What stands before a place where an attribute is put, and after the length of the message,
stays. -/
theorem holds_put {bytes data : Bytes} {offset place type len n : ℕ} (h : b.Holds offset bytes)
    (hafter : 4 ≤ offset) (hbefore : offset + bytes.length ≤ place) :
    ((((b.writeNumber (place + 2) 2 type).writeNumber place 2 len).write
      (rtaData place) data).writeNumber 0 4 n).Holds offset bytes := by
  refine Buffer.Holds.write (Buffer.Holds.write (Buffer.Holds.write (h.write ?_) ?_) ?_) ?_
  · exact Or.inl (hbefore.trans (Nat.le_add_right place 2))
  · exact Or.inl hbefore
  · exact Or.inl (hbefore.trans (Nat.le_add_right place 4))
  · exact Or.inr (by simpa using hafter)

/-- The attribute that is put somewhere stands there. -/
theorem holds_of_put {data : Bytes} {place type len n : ℕ} (hplace : 4 ≤ place)
    (hroom : place + (rtattrSize + data.length) ≤ b.content.length) :
    ((((b.writeNumber (place + 2) 2 type).writeNumber place 2 len).write
      (rtaData place) data).writeNumber 0 4 n).Holds
      place (b.order.encode 2 len ++ (b.order.encode 2 type ++ data)) := by
  simp only [rtattrSize] at hroom
  refine Buffer.Holds.append ?_ (Buffer.Holds.append ?_ ?_)
  · refine Buffer.Holds.write (Buffer.Holds.write (Buffer.holds_write ?_) ?_) ?_ <;>
      simp only [Buffer.length_writeNumber, ByteOrder.length_encode, rtaData, rtattrSize] <;> omega
  · rw [ByteOrder.length_encode]
    refine Buffer.Holds.write
      (Buffer.Holds.write (Buffer.Holds.write (Buffer.holds_write ?_) ?_) ?_) ?_ <;>
      simp only [ByteOrder.length_encode, rtaData, rtattrSize] <;> omega
  · rw [ByteOrder.length_encode, ByteOrder.length_encode]
    refine Buffer.Holds.write (Buffer.holds_write ?_) ?_ <;>
      simp only [Buffer.length_writeNumber, ByteOrder.length_encode, rtaData, rtattrSize] <;> omega

/-- **An attribute that fits is added.** -/
theorem Carries.add (h : Carries capacity b as length) (hfits : length + a.size ≤ capacity) :
    (addAttribute b capacity a.type a.data).1 = true ∧
      Carries capacity (addAttribute b capacity a.type a.data).2 (as ++ [a.stored])
        (length + a.size) := by
  have hmost := hfits.trans h.most
  have hroom := hfits.trans h.room
  have hle := le_size a
  obtain ⟨bytes, hlength, hdvd, hpacked, hholds⟩ := h.packed
  have hfour : 4 ≤ length := by
    rw [hlength]
    exact Nat.le_add_right_of_le (by decide)
  have hitem : a.stored.Encodes b.order (a.stored.bytes b.order) :=
    ⟨rfl, by simp only [NewAttribute.stored]; omega⟩
  rw [addAttribute_fits h hfits]
  set b' := (((b.writeNumber (length + 2) 2 a.stored.type.toNat).writeNumber length 2
    (rtattrSize + a.data.length)).write (rtaData length) a.data).writeNumber 0 4
      (length + a.size) with hb'
  have hcontent : b'.content.length = b.content.length := by simp [hb']
  have hbefore : b'.Holds emptyLength bytes := holds_put hholds (by decide) hlength.ge
  have hput : b'.Holds length (a.stored.bytes b.order) := holds_of_put hfour (by omega)
  -- what stands behind the attribute is its padding
  obtain ⟨padding, hpadding, hpadded⟩ :=
    hput.extend ((length_stored a b.order).le.trans hle) (hcontent ▸ hroom)
  have hround : (a.stored.bytes b.order).length + padding.length =
      roundUp 4 (a.stored.bytes b.order).length := by
    rw [hpadding, length_stored, NewAttribute.size]
  have hgrown : (bytes ++ (a.stored.bytes b.order ++ padding)).length = bytes.length + a.size := by
    rw [List.length_append, List.length_append, hpadding]
  refine ⟨rfl, h.most, hcontent ▸ h.room, ?_, hfits, bytes ++ (a.stored.bytes b.order ++ padding),
    ?_, ?_, hpacked.concat (by decide) hdvd hitem hround, hbefore.append (hlength ▸ hpadded)⟩
  · refine Buffer.field_writeNumber ?_ (by omega)
    simp only [Buffer.length_write, Buffer.length_writeNumber]
    omega
  · rw [hgrown, hlength, Nat.add_assoc]
  · rw [hgrown]
    exact (Nat.dvd_add_right hdvd).mpr (four_dvd_size a)

/-- Of what stands before it only the length of the message changes. -/
theorem Carries.add_headers (h : Carries capacity b as length) (hfits : length + a.size ≤ capacity)
    {headers : Bytes} (hheaders : b.Holds 4 headers) (hsize : 4 + headers.length ≤ emptyLength) :
    (addAttribute b capacity a.type a.data).2.Holds 0
      (b.order.encode 4 (length + a.size) ++ headers) := by
  have hroom := h.fits.trans h.room
  obtain ⟨bytes, hlength, -⟩ := h.packed
  have hle : emptyLength ≤ length := hlength ▸ Nat.le_add_right _ _
  rw [addAttribute_fits h hfits]
  refine Buffer.Holds.append (Buffer.holds_write ?_) ?_
  · rw [ByteOrder.length_encode, Buffer.length_write, Buffer.length_writeNumber,
      Buffer.length_writeNumber]
    omega
  · rw [ByteOrder.length_encode]
    exact holds_put hheaders le_rfl (hsize.trans hle)

/-- Nothing is written past the buffer. -/
theorem Carries.add_beyond (h : Carries capacity b as length) (hfits : length + a.size ≤ capacity) :
    (addAttribute b capacity a.type a.data).2.beyond = b.beyond := by
  have hroom := hfits.trans h.room
  have hle := le_size a
  simp only [rtattrSize] at hle
  rw [addAttribute_fits h hfits]
  refine (Buffer.beyond_write ?_).trans
      ((Buffer.beyond_write ?_).trans ((Buffer.beyond_write ?_).trans (Buffer.beyond_write ?_))) <;>
      simp only [Buffer.length_write, Buffer.length_writeNumber, ByteOrder.length_encode, rtaData,
        rtattrSize] <;> omega

/-- What a call returns. -/
theorem Carries.refused_iff (h : Carries capacity b as length) :
    (addAttribute b capacity a.type a.data).1 = false ↔ capacity < length + a.size % 2 ^ 32 := by
  by_cases hlarge : capacity < length + a.size % 2 ^ 32
  · rw [addAttribute_refused h hlarge]
    exact iff_of_true rfl hlarge
  · rw [addAttribute_accepted h (not_lt.mp hlarge)]
    exact iff_of_false Bool.noConfusion hlarge

theorem addAttribute_unchanged {type : ℤ} {data : Bytes}
    (h : (addAttribute b capacity type data).1 = false) :
    (addAttribute b capacity type data).2 = b := by
  rw [addAttribute] at h ⊢
  split_ifs at h ⊢
  rfl

/-! ### One call after the other -/

variable {calls before : List NewAttribute} {s : List NewAttribute × Buffer}

theorem total_concat (as : List NewAttribute) (a : NewAttribute) :
    total (as ++ [a]) = total as + a.size :=
  List.foldl_concat _ _ _ _

theorem kept_take_succ {i : ℕ} (hi : i < calls.length) :
    kept capacity (calls.take (i + 1)) = keep capacity (kept capacity (calls.take i)) calls[i] := by
  rw [kept, List.take_succ_eq_append_getElem hi, List.foldl_concat, ← kept]

theorem addAttributes_take_succ (b : Buffer) {i : ℕ} (hi : i < calls.length) :
    addAttributes capacity b (calls.take (i + 1)) =
      addNext capacity (addAttributes capacity b (calls.take i)) calls[i] := by
  rw [addAttributes, List.take_succ_eq_append_getElem hi, List.foldl_concat, ← addAttributes]

theorem addNext_eq (capacity : ℕ) (s : List NewAttribute × Buffer) (a : NewAttribute) : addNext
    capacity s a = (if (addAttribute s.2 capacity a.type a.data).1 = true then s.1 ++ [a] else s.1,
      (addAttribute s.2 capacity a.type a.data).2) := by
  rcases hcall : addAttribute s.2 capacity a.type a.data with ⟨_ | _, b⟩ <;> simp [addNext, hcall]

theorem mem_foldl_keep : a ∈ calls.foldl (keep capacity) before ↔ a ∈ before ∨
    ∃ i, ∃ hi : i < calls.length, calls[i] = a ∧
      total ((calls.take i).foldl (keep capacity) before) + a.size ≤ capacity := by
  induction calls generalizing before with
  | nil => simp
  | cons c calls ih =>
    have hkeep : a ∈ keep capacity before c ↔ a ∈ before ∨
        (c = a ∧ total before + a.size ≤ capacity) := by
      rw [keep]
      split_ifs with hfits
      · rw [List.mem_append, List.mem_singleton]
        exact or_congr_right ⟨fun h => ⟨h.symm, h ▸ hfits⟩, fun h => h.1.symm⟩
      · exact ⟨Or.inl, fun h => h.resolve_right fun ⟨hc, hfits'⟩ => hfits (hc ▸ hfits')⟩
    rw [List.foldl_cons, ih, hkeep, or_assoc]
    -- the first of the calls, or a later one
    refine or_congr_right ?_
    simp only [List.length_cons, Nat.exists_lt_succ_left']
    rfl

/-- **An attribute is kept exactly if it fits** after those before it that are. -/
theorem mem_kept_iff : a ∈ kept capacity calls ↔
    ∃ i, ∃ hi : i < calls.length, calls[i] = a ∧
      total (kept capacity (calls.take i)) + a.size ≤ capacity := by
  rw [kept, mem_foldl_keep]
  simp only [List.not_mem_nil, false_or]
  rfl

/-- What was added is what is kept, and the message has it. -/
structure Tracks (capacity : ℕ) (s : List NewAttribute × Buffer)
    (kept : List NewAttribute) : Prop where
  /-- What was added. -/
  added : s.1 = kept
  /-- The message. -/
  carries : Carries capacity s.2 (kept.map NewAttribute.stored) (total kept)

/-- A call, unless the size is small modulo 2 ^ 32 only. -/
theorem Tracks.next (h : Tracks capacity s before) (hsize : Measured capacity before a) :
    Tracks capacity (addNext capacity s a) (keep capacity before a) := by
  obtain ⟨rfl, hcarries⟩ := h
  rw [addNext_eq, keep]
  by_cases hfits : total s.1 + a.size ≤ capacity
  · obtain ⟨hok, hadded⟩ := hcarries.add hfits
    rw [if_pos hok, if_pos hfits]
    refine ⟨rfl, ?_⟩
    rwa [List.map_append, total_concat]
  · have hrefused := addAttribute_refused hcarries (hsize (not_le.mp hfits))
    rw [hrefused, if_neg Bool.false_ne_true, if_neg hfits]
    exact ⟨rfl, hcarries⟩

/-- **The run**: as long as no size is small modulo 2 ^ 32 only, what fits is
added and the message has it. -/
theorem tracks_take (h : Fresh capacity b) {n : ℕ} (hn : n ≤ calls.length)
    (hsize : ∀ i (_ : i < calls.length), i < n →
      Measured capacity (kept capacity (calls.take i)) calls[i]) :
    Tracks capacity (addAttributes capacity b (calls.take n)) (kept capacity (calls.take n)) := by
  induction n with
  | zero => exact ⟨rfl, h.carries⟩
  | succ n ih =>
    rw [addAttributes_take_succ b hn, kept_take_succ hn]
    exact (ih (Nat.le_of_succ_le hn) fun i hi hlt => hsize i hi (hlt.trans n.lt_succ_self)).next
      (hsize n hn n.lt_succ_self)

/-- **Nothing is written past the buffer**, as long as no size is small modulo 2 ^ 32 only. -/
theorem beyond_addAttributes (h : Fresh capacity b)
    (hsize : ∀ i (_ : i < calls.length),
      Measured capacity (kept capacity (calls.take i)) calls[i]) :
    (addAttributes capacity b calls).2.beyond = b.beyond := by
  have htake : ∀ n ≤ calls.length,
      (addAttributes capacity b (calls.take n)).2.beyond = b.beyond := by
    intro n hn
    induction n with
    | zero => rfl
    | succ n ih =>
      have hcarries := (tracks_take h (Nat.le_of_succ_le hn) fun i hi _ => hsize i hi).carries
      have hsame := ih (Nat.le_of_succ_le hn)
      rw [addAttributes_take_succ b hn, addNext_eq]
      by_cases hfits : total (kept capacity (calls.take n)) + calls[n].size ≤ capacity
      · exact (hcarries.add_beyond hfits).trans hsame
      · rw [addAttribute_refused hcarries (hsize n hn (not_le.mp hfits))]
        exact hsame
  have hall := htake calls.length le_rfl
  rwa [List.take_length] at hall

/-- What is found in the end. -/
theorem Tracks.visited_iff (h : Tracks capacity s before) :
    visited s.2 = s.1 ↔ ∀ a ∈ before, 0 ≤ a.type ∧ a.type < 2 ^ 16 := by
  obtain ⟨rfl, hcarries⟩ := h
  rw [hcarries.visited, List.map_map]
  nth_rewrite 2 [← List.map_id s.1]
  rw [List.map_inj_left]
  exact forall₂_congr fun a _ => stored_eq_iff a

/-- A call fails when it should, exactly unless the size is small modulo 2 ^ 32 only. -/
theorem Tracks.refused_iff (h : Tracks capacity s before) :
    ((addAttribute s.2 capacity a.type a.data).1 = false ↔
      capacity < nlmsgAlign (nlmsgLen s.2 0) + a.size) ↔
      Measured capacity before a := by
  obtain ⟨rfl, hcarries⟩ := h
  rw [hcarries.refused_iff, hcarries.aligned]
  have hle : total s.1 + a.size % 2 ^ 32 ≤ total s.1 + a.size :=
    Nat.add_le_add_left (Nat.mod_le _ _) _
  exact ⟨fun h => h.mpr, fun h => ⟨fun hlt => hlt.trans_le hle, h⟩⟩

/-- **The calls read back exactly if what is given to each can be stored.** -/
theorem readsBack_iff (h : Fresh capacity b) (calls : List NewAttribute) :
    ReadsBack capacity b calls ↔
    ∀ i (_ : i < calls.length), Storable capacity (kept capacity (calls.take i)) calls[i] := by
  constructor
  · intro hback
    have hsize : ∀ i (_ : i < calls.length),
        Measured capacity (kept capacity (calls.take i)) calls[i] := by
      intro i
      induction i using Nat.strongRecOn with
      | ind i ih =>
        intro hi
        have htracks := tracks_take h hi.le fun j hj hji => ih j hji hj
        exact htracks.refused_iff.mp (hback.refused i hi)
    have htracks := tracks_take h le_rfl fun i hi _ => hsize i hi
    rw [List.take_length] at htracks
    have htyped := htracks.visited_iff.mp hback.visited
    exact fun i hi => ⟨fun hfits => htyped _ (mem_kept_iff.mpr ⟨i, hi, rfl, hfits⟩), hsize i hi⟩
  · intro hstorable
    have htracks : ∀ i ≤ calls.length, Tracks capacity (addAttributes capacity b (calls.take i))
        (kept capacity (calls.take i)) :=
      fun i hi => tracks_take h hi fun j hj _ => (hstorable j hj).2
    refine ⟨fun i hi => ?_, fun i hi => ?_, fun i _ => addAttribute_unchanged, ?_⟩
    · have hcarries := (htracks i hi).carries
      rw [hcarries.len]
      exact hcarries.fits
    · exact (htracks i hi.le).refused_iff.mpr (hstorable i hi).2
    · have hall := htracks calls.length le_rfl
      rw [List.take_length] at hall
      refine hall.visited_iff.mpr fun a ha => ?_
      obtain ⟨i, hi, rfl, hfits⟩ := mem_kept_iff.mp ha
      exact (hstorable i hi).1 hfits

/-- An attribute that is too large, but is not modulo 2 ^ 32, is not refused. -/
theorem not_readsBack (h : Fresh capacity b) (hlarge : capacity < emptyLength + a.size)
    (hsmall : emptyLength + a.size % 2 ^ 32 ≤ capacity) : ¬ ReadsBack capacity b [a] := fun hback =>
  (((readsBack_iff h [a]).mp hback 0 Nat.zero_lt_one).2 hlarge).not_ge hsmall

/-- **What has a 16-bit type and fewer than 2 ^ 32 - 7 bytes reads back.** -/
theorem readsBack_of_lt (h : Fresh capacity b)
    (hcalls : ∀ a ∈ calls, (0 ≤ a.type ∧ a.type < 2 ^ 16) ∧ a.data.length < 2 ^ 32 - 7) :
    ReadsBack capacity b calls := by
  refine (readsBack_iff h calls).mpr fun i hi => ?_
  obtain ⟨htype, hlength⟩ := hcalls _ (List.getElem_mem hi)
  have hsize : calls[i].size % 2 ^ 32 = calls[i].size := by
    rw [NewAttribute.size, roundUp, rtattrSize]
    omega
  exact ⟨fun _ => htype, fun hlarge => by rwa [hsize]⟩

end IpRouter.Netlink
