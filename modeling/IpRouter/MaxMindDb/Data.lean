import IpRouter.Theory.Guarded
import IpRouter.Theory.Wire

/-!
# The data section of a MaxMind database

`decode_one` of the vendored `maxminddb.c` and what is built on it: following a
pointer, skipping a map or an array, and finding a value by a path of keys and
indices. The section is a piece of the file; an offset into it is a `uint32_t`, and
every check is made on the side that was thought not to overflow.

`safe_decodeOne` and `safe_getValue` say that no byte outside the section is read,
whatever the section contains, if it has three bytes.
-/

namespace IpRouter.MaxMindDb

open Theory

/-! ### Numbers and errors -/

/-- The difference of two `uint32_t`. -/
def sub32 (a b : ℕ) : ℕ := if b ≤ a then a - b else a + 2 ^ 32 - b

theorem sub32_of_le {a b : ℕ} (h : b ≤ a) : sub32 a b = a - b := if_pos h

/-- The error codes `MMDB_*_ERROR` that a lookup can end with. -/
inductive MmdbError where
  /-- `MMDB_CORRUPT_SEARCH_TREE_ERROR`. -/
  | corruptSearchTree
  /-- `MMDB_INVALID_METADATA_ERROR`. -/
  | invalidMetadata
  /-- `MMDB_UNKNOWN_DATABASE_FORMAT_ERROR`. -/
  | unknownDatabaseFormat
  /-- `MMDB_INVALID_DATA_ERROR`. -/
  | invalidData
  /-- `MMDB_INVALID_LOOKUP_PATH_ERROR`. -/
  | invalidLookupPath
  /-- `MMDB_LOOKUP_PATH_DOES_NOT_MATCH_DATA_ERROR`. -/
  | lookupPathDoesNotMatchData
  /-- `MMDB_IPV6_LOOKUP_IN_IPV4_DATABASE_ERROR`. -/
  | ipv6LookupInIpv4Database
  deriving DecidableEq

/-- The number of an error. -/
def MmdbError.code : MmdbError → ℤ
  | .corruptSearchTree => 2
  | .invalidMetadata => 3
  | .unknownDatabaseFormat => 6
  | .invalidData => 7
  | .invalidLookupPath => 8
  | .lookupPathDoesNotMatchData => 9
  | .ipv6LookupInIpv4Database => 11

/-- A function of the library. -/
abbrev Decode (α : Type) := Checked MmdbError α

/-- `MAXIMUM_DATA_STRUCTURE_DEPTH`. -/
def maximumDataStructureDepth : ℕ := 512

/-! ### Memory -/

/-- A piece of the file in memory: what is read outside of it is not the library's. -/
abbrev Memory := Bytes

namespace Memory

/-- `mem[offset]`. -/
def byte (mem : Memory) (offset : ℕ) : Decode ℕ :=
  match mem[offset]? with
  | some b => .ok b.toNat
  | none => .error .fault

/-- `get_uint16`. -/
def getUint16 (mem : Memory) (offset : ℕ) : Decode ℕ := do
  let p0 ← mem.byte offset
  let p1 ← mem.byte (offset + 1)
  return p0 * 256 + p1

/-- `get_uint24`. -/
def getUint24 (mem : Memory) (offset : ℕ) : Decode ℕ := do
  let p0 ← mem.byte offset
  let p1 ← mem.byte (offset + 1)
  let p2 ← mem.byte (offset + 2)
  return p0 * 65536 + p1 * 256 + p2

/-- `get_uint32`. -/
def getUint32 (mem : Memory) (offset : ℕ) : Decode ℕ := do
  let p0 ← mem.byte offset
  let p1 ← mem.byte (offset + 1)
  let p2 ← mem.byte (offset + 2)
  let p3 ← mem.byte (offset + 3)
  return p0 * 16777216 + p1 * 65536 + p2 * 256 + p3

/-- The loop that reads a number of `length` bytes into a variable of `bits` bits. -/
def getBytes (mem : Memory) (bits : ℕ) : ℕ → ℕ → ℕ → Decode ℕ
  | 0, _, value => .ok value
  | length + 1, offset, value => do
    let p ← mem.byte offset
    mem.getBytes bits length (offset + 1) ((value * 256 % 2 ^ bits + p) % 2 ^ bits)

/-- `get_uintX`. -/
def getUintX (mem : Memory) (offset length : ℕ) : Decode ℕ := mem.getBytes 64 length offset 0

/-- `get_uint128`. -/
def getUint128 (mem : Memory) (offset length : ℕ) : Decode ℕ := mem.getBytes 128 length offset 0

/-- `get_sintX`. -/
def getSintX (mem : Memory) (offset length : ℕ) : Decode ℤ := do
  let value ← mem.getUintX offset length
  return (BitVec.ofNat 32 value).toInt

/-- The bytes a pointer into the section and a size stand for. -/
def span (mem : Memory) (offset size : ℕ) : Decode Bytes :=
  if size = 0 then .ok []
  else if offset + size ≤ mem.length then .ok ((mem.drop offset).take size)
  else .error .fault

variable {mem : Memory} {offset size : ℕ}

theorem safe_byte (h : offset < mem.length) : Safe (mem.byte offset) fun p => p < 256 := by
  rw [byte, List.getElem?_eq_getElem h]
  exact Safe.ok (UInt8.toNat_lt _)

theorem safe_getUint16 (h : offset + 2 ≤ mem.length) : Safe (mem.getUint16 offset) fun _ => True :=
  (safe_byte (by omega)).bind fun _ _ => (safe_byte (by omega)).bind fun _ _ => Safe.ok trivial

theorem safe_getUint24 (h : offset + 3 ≤ mem.length) : Safe (mem.getUint24 offset) fun _ => True :=
  (safe_byte (by omega)).bind fun _ _ => (safe_byte (by omega)).bind fun _ _ =>
      (safe_byte (by omega)).bind fun _ _ =>
    Safe.ok trivial

theorem safe_getUint32 (h : offset + 4 ≤ mem.length) : Safe (mem.getUint32 offset) fun _ => True :=
  (safe_byte (by omega)).bind fun _ _ => (safe_byte (by omega)).bind fun _ _ =>
      (safe_byte (by omega)).bind fun _ _ =>
    (safe_byte (by omega)).bind fun _ _ => Safe.ok trivial

theorem safe_getBytes (bits : ℕ) {length : ℕ} (value : ℕ) (h : offset + length ≤ mem.length) :
    Safe (mem.getBytes bits length offset value) fun _ => True := by
  induction length generalizing offset value with
  | zero => exact Safe.ok trivial
  | succ length ih =>
    rw [getBytes]
    exact (safe_byte (by omega)).bind fun p _ => ih _ (by omega)

theorem safe_getSintX {length : ℕ} (h : offset + length ≤ mem.length) :
    Safe (mem.getSintX offset length) fun _ => True :=
  (safe_getBytes 64 0 h).bind fun _ _ => Safe.ok trivial

theorem safe_span (h : offset + size ≤ mem.length) : Safe (mem.span offset size) fun _ => True := by
  rw [span, if_pos h]
  split_ifs
  · exact Safe.ok trivial
  · exact Safe.ok trivial

end Memory

/-- `data_section`. -/
structure DataSection where
  /-- The bytes of the section: `data_section_size` is how many they are. -/
  content : Memory
  /-- `data_section_size` is a `uint32_t`. -/
  size_lt : content.length < 2 ^ 32
  deriving DecidableEq

/-! ### Entries -/

/-- The types `MMDB_DATA_TYPE_*`. -/
inductive DataType where
  | extended | pointer | utf8String | double | bytes | uint16 | uint32 | map | int32 |
    uint64 | uint128 | array
  | container | endMarker | boolean | float
  /-- A number that no type has. -/
  | other (num : ℕ)
  deriving DecidableEq

/-- The type with a number. -/
def DataType.ofNum : ℕ → DataType
  | 0 => .extended
  | 1 => .pointer
  | 2 => .utf8String
  | 3 => .double
  | 4 => .bytes
  | 5 => .uint16
  | 6 => .uint32
  | 7 => .map
  | 8 => .int32
  | 9 => .uint64
  | 10 => .uint128
  | 11 => .array
  | 12 => .container
  | 13 => .endMarker
  | 14 => .boolean
  | 15 => .float
  | num => .other num

/-- The data of an entry: `type` and the field of `MMDB_entry_data_s` it selects, with
`data_size` where it has a meaning. -/
inductive Datum where
  /-- `pointer`. -/
  | pointer (pointer : ℕ)
  /-- `utf8_string`. -/
  | utf8String (utf8String : Bytes)
  /-- `double_value`, as its bits. -/
  | double (bits : ℕ)
  /-- `bytes`. -/
  | bytes (bytes : Bytes)
  /-- `uint16`. -/
  | uint16 (uint16 : ℕ)
  /-- `uint32`. -/
  | uint32 (uint32 : ℕ)
  /-- A map of `data_size` keys and values. -/
  | map (dataSize : ℕ)
  /-- `int32`. -/
  | int32 (int32 : ℤ)
  /-- `uint64`. -/
  | uint64 (uint64 : ℕ)
  /-- `uint128`. -/
  | uint128 (uint128 : ℕ)
  /-- An array of `data_size` values. -/
  | array (dataSize : ℕ)
  /-- `boolean`. -/
  | boolean (boolean : Bool)
  /-- `float_value`, as its bits. -/
  | float (bits : ℕ)
  /-- Data of a type that has no field. -/
  | other (type : DataType)
  deriving DecidableEq

/-- `data_size`, where it has a meaning. -/
def Datum.dataSize : Datum → ℕ
  | .utf8String s => s.length
  | .bytes s => s.length
  | .map dataSize => dataSize
  | .array dataSize => dataSize
  | _ => 0

/-- `MMDB_entry_data_s`. -/
structure EntryData where
  /-- `offset`. -/
  offset : ℕ
  /-- `type`, and the value. -/
  datum : Datum
  /-- `offset_to_next`. -/
  offsetToNext : ℕ
  deriving DecidableEq

/-! ### Decoding -/

namespace DataSection

/-- `get_ext_type`. -/
def getExtType (rawExtType : ℕ) : ℕ := 7 + rawExtType

/-- `get_ptr_from`. -/
def getPtrFrom (db : DataSection) (ctrl offset : ℕ) : ℕ → Decode ℕ
  | 1 => do
    let p0 ← db.content.byte offset
    return ((ctrl &&& 7) <<< 8) + p0
  | 2 => do
    let p0 ← db.content.byte offset
    let p1 ← db.content.byte (offset + 1)
    return 2048 + ((ctrl &&& 7) <<< 16) + (p0 <<< 8) + p1
  | 3 => do
    let p ← db.content.getUint24 offset
    return 2048 + 524288 + ((ctrl &&& 7) <<< 24) + p
  | _ => db.content.getUint32 offset

/-- The type of an entry, and where it goes on: from the control byte, or from the byte after it. -/
def decodeType (db : DataSection) (ctrl offset : ℕ) : Decode (DataType × ℕ) :=
  let type := (ctrl >>> 5) &&& 7
  if DataType.ofNum type = .extended then
    if sub32 db.content.length 1 < offset then Checked.stop .invalidData
    else do
      let raw ← db.content.byte offset
      return (DataType.ofNum (getExtType raw), offset + 1)
  else return (DataType.ofNum type, offset)

/-- A pointer: where it points to, and where the entry ends. -/
def decodePointer (db : DataSection) (ctrl offset : ℕ) : Decode (Datum × ℕ) :=
  let psize := ((ctrl >>> 3) &&& 3) + 1
  if sub32 db.content.length psize < offset ∨ db.content.length < psize then
    Checked.stop .invalidData
  else do
    let pointer ← db.getPtrFrom ctrl offset psize
    return (.pointer pointer, offset + psize)

/-- The size in the control byte, or in the bytes after it, and where the data begin. -/
def decodeSize (db : DataSection) (ctrl offset : ℕ) : Decode (ℕ × ℕ) :=
  match ctrl &&& 31 with
  | 29 =>
    if sub32 db.content.length 1 < offset then Checked.stop .invalidData
    else do
      let p ← db.content.byte offset
      return (29 + p, offset + 1)
  | 30 =>
    if sub32 db.content.length 2 < offset then Checked.stop .invalidData
    else do
      let p ← db.content.getUint16 offset
      return (285 + p, offset + 2)
  | 31 =>
    if sub32 db.content.length 3 < offset then Checked.stop .invalidData
    else do
      let p ← db.content.getUint24 offset
      return (65821 + p, offset + 3)
  | size => return (size, offset)

/-- The data of an entry of the type and the size, at an offset from which they do
not extend past the section. -/
def decodeData (db : DataSection) (type : DataType) (size offset : ℕ) : Decode Datum :=
  match type with
  | .uint16 =>
    if 2 < size then Checked.stop .invalidData
    else do
      let value ← db.content.getUintX offset size
      return .uint16 (value % 2 ^ 16)
  | .uint32 =>
    if 4 < size then Checked.stop .invalidData
    else do
      let value ← db.content.getUintX offset size
      return .uint32 (value % 2 ^ 32)
  | .int32 =>
    if 4 < size then Checked.stop .invalidData
    else do
      let value ← db.content.getSintX offset size
      return .int32 value
  | .uint64 =>
    if 8 < size then Checked.stop .invalidData
    else do
      let value ← db.content.getUintX offset size
      return .uint64 value
  | .uint128 =>
    if 16 < size then Checked.stop .invalidData
    else do
      let value ← db.content.getUint128 offset size
      return .uint128 value
  | .float =>
    if size ≠ 4 then Checked.stop .invalidData
    else do
      let bits ← db.content.getUintX offset 4
      return .float bits
  | .double =>
    if size ≠ 8 then Checked.stop .invalidData
    else do
      let bits ← db.content.getUintX offset 8
      return .double bits
  | .utf8String => do
    let value ← db.content.span offset size
    return .utf8String value
  | .bytes => do
    let value ← db.content.span offset size
    return .bytes value
  | type => return .other type

/-- What `decode_one` does after the size: the value, and where the entry ends. -/
def decodeBody (db : DataSection) (type : DataType) (size offset : ℕ) : Decode (Datum × ℕ) :=
  match type with
  | .map => return (.map size, offset)
  | .array => return (.array size, offset)
  | .boolean => return (.boolean (size ≠ 0), offset)
  | type =>
    if sub32 db.content.length size < offset ∨ db.content.length < size then
      Checked.stop .invalidData
    else do
      let datum ← db.decodeData type size offset
      return (datum, offset + size)

/-- What `decode_one` does with what is not a pointer: the value, and where the entry ends. -/
def decodeSized (db : DataSection) (type : DataType) (ctrl offset : ℕ) : Decode (Datum × ℕ) := do
  let size ← db.decodeSize ctrl offset
  db.decodeBody type size.1 size.2

/-- What `decode_one` does after the type: the value, and where the entry ends. -/
def decodeTyped (db : DataSection) (type : DataType) (ctrl offset : ℕ) : Decode (Datum × ℕ) :=
  if type = .pointer then db.decodePointer ctrl offset else db.decodeSized type ctrl offset

/-- `decode_one`. -/
def decodeOne (db : DataSection) (offset : ℕ) : Decode EntryData :=
  if sub32 db.content.length 1 < offset then Checked.stop .invalidData
  else do
    let ctrl ← db.content.byte offset
    let type ← db.decodeType ctrl (offset + 1)
    let datum ← db.decodeTyped type.1 ctrl type.2
    return ⟨offset, datum.1, datum.2⟩

/-- `decode_one_follow`. -/
def decodeOneFollow (db : DataSection) (offset : ℕ) : Decode EntryData := do
  let entry ← db.decodeOne offset
  match entry.datum with
  | .pointer pointer =>
    let target ← db.decodeOne pointer
    match target.datum with
    | .pointer _ => Checked.stop .invalidData
    | .map _ => return target
    | .array _ => return target
    | _ => return { target with offsetToNext := entry.offsetToNext }
  | _ => return entry

/-! ### Paths -/

/-- `skip_map_or_array`, where `left` is by how much `depth` is below the maximum. -/
def skipMapOrArray (db : DataSection) : ℕ → EntryData → Decode EntryData
  | 0, _ => Checked.stop .invalidData
  | left + 1, entry =>
    match entry.datum with
    | .map size =>
      Checked.times (fun e => do
        let key ← db.decodeOne e.offsetToNext
        let value ← db.decodeOne key.offsetToNext
        db.skipMapOrArray left value) size entry
    | .array size =>
      Checked.times (fun e => do
        let value ← db.decodeOne e.offsetToNext
        db.skipMapOrArray left value) size entry
    | _ => .ok entry

/-- The next entry, with what it contains. -/
def skipOne (db : DataSection) (offset : ℕ) : Decode EntryData := do
  let value ← db.decodeOne offset
  db.skipMapOrArray maximumDataStructureDepth value

/-- `lookup_path_in_array`, in the array of `size` values before `entry.offsetToNext`. -/
def lookupPathInArray (db : DataSection) (pathElem : Bytes) (size : ℕ) (entry : EntryData) :
    Decode EntryData :=
  let strtol := strtoll pathElem
  let arrayIndex := if strtol.value < 0 then strtol.value + size else strtol.value
  if ¬ strtol.inRange then Checked.stop .invalidLookupPath
  else if arrayIndex < 0 then Checked.stop .lookupPathDoesNotMatchData
  else if strtol.rest ≠ [] ∨ (size : ℤ) ≤ arrayIndex then Checked.stop .lookupPathDoesNotMatchData
  else do
    let last ← Checked.times (fun e => db.skipOne e.offsetToNext) arrayIndex.toNat entry
    db.decodeOneFollow last.offsetToNext

/-- `lookup_path_in_map`, with `size` keys left at an offset. -/
def lookupPathInMap (db : DataSection) (pathElem : Bytes) : ℕ → ℕ → Decode EntryData
  | 0, _ => Checked.stop .lookupPathDoesNotMatchData
  | size + 1, offset => do
    let key ← db.decodeOneFollow offset
    match key.datum with
    | .utf8String utf8String =>
      if utf8String = pathElem then db.decodeOneFollow key.offsetToNext
      else do
        let value ← db.skipOne key.offsetToNext
        db.lookupPathInMap pathElem size value.offsetToNext
    | _ => Checked.stop .invalidData

/-- One round of the loop of `MMDB_aget_value`. -/
def lookupPath (db : DataSection) (pathElem : Bytes) (entry : EntryData) : Decode EntryData :=
  match entry.datum with
  | .array size => db.lookupPathInArray pathElem size entry
  | .map size => db.lookupPathInMap pathElem size entry.offsetToNext
  | _ => Checked.stop .lookupPathDoesNotMatchData

/-- The loop of `MMDB_aget_value` over the path. -/
def lookupPaths (db : DataSection) : List Bytes → EntryData → Decode EntryData
  | [], entry => .ok entry
  | pathElem :: path, entry => db.lookupPath pathElem entry >>= db.lookupPaths path

/-- `MMDB_aget_value`, with which `MMDB_get_value` ends. -/
def getValue (db : DataSection) (offset : ℕ) (path : List Bytes) : Decode EntryData :=
  db.decodeOneFollow offset >>= db.lookupPaths path

/-! ### What is read -/

variable {db : DataSection} {offset size : ℕ}

/-- What the checks on an offset say, which subtract so that nothing overflows. -/
theorem add_le_of_not_sub32_lt (h : ¬sub32 db.content.length size < offset)
    (hsize : size ≤ db.content.length) : offset + size ≤ db.content.length := by
  rw [sub32_of_le hsize] at h
  omega

theorem add_le_of_check (h : ¬(sub32 db.content.length size < offset ∨ db.content.length < size)) :
    offset + size ≤ db.content.length := by
  rw [not_or, Nat.not_lt (b := size)] at h
  exact add_le_of_not_sub32_lt h.1 h.2

theorem safe_getPtrFrom (ctrl psize : ℕ) (h : offset + psize ≤ db.content.length) (hpos : 1 ≤ psize)
    (hle : psize ≤ 4) :
    Safe (db.getPtrFrom ctrl offset psize) fun _ => True := by
  obtain rfl | rfl | rfl | rfl : psize = 1 ∨ psize = 2 ∨ psize = 3 ∨ psize = 4 := by omega
  · exact (Memory.safe_byte (by omega)).bind fun _ _ => Safe.ok trivial
  · exact (Memory.safe_byte (by omega)).bind fun _ _ => (Memory.safe_byte (by omega)).bind
      fun _ _ => Safe.ok trivial
  · exact (Memory.safe_getUint24 (by omega)).bind fun _ _ => Safe.ok trivial
  · exact Memory.safe_getUint32 (by omega)

theorem safe_decodePointer (ctrl : ℕ) : Safe (db.decodePointer ctrl offset) fun r =>
    r.2 ≤ db.content.length := by
  refine Safe.check fun hcheck => ?_
  have hle := add_le_of_check hcheck
  have hbits : (ctrl >>> 3) &&& 3 ≤ 3 := Nat.and_le_right
  exact (safe_getPtrFrom ctrl _ hle (by omega) (by omega)).bind fun _ _ => Safe.ok hle

theorem safe_decodeType (hsize : 3 ≤ db.content.length) (ctrl : ℕ)
    (hle : offset ≤ db.content.length) :
    Safe (db.decodeType ctrl offset) fun r => r.2 ≤ db.content.length := by
  simp only [decodeType]
  split_ifs with htype hcheck
  · exact Safe.stop _
  · have hlt := add_le_of_not_sub32_lt hcheck (by omega)
    exact (Memory.safe_byte (by omega)).bind fun _ _ => Safe.ok hlt
  · exact Safe.ok hle

theorem safe_decodeSize (hsize : 3 ≤ db.content.length) (ctrl : ℕ)
    (hle : offset ≤ db.content.length) :
    Safe (db.decodeSize ctrl offset) fun r => r.2 ≤ db.content.length := by
  simp only [decodeSize]
  split
  · refine Safe.check fun hcheck => ?_
    have hlt := add_le_of_not_sub32_lt hcheck (by omega)
    exact (Memory.safe_byte (by omega)).bind fun _ _ => Safe.ok hlt
  · refine Safe.check fun hcheck => ?_
    have hlt := add_le_of_not_sub32_lt hcheck (by omega)
    exact (Memory.safe_getUint16 hlt).bind fun _ _ => Safe.ok hlt
  · refine Safe.check fun hcheck => ?_
    have hlt := add_le_of_not_sub32_lt hcheck (by omega)
    exact (Memory.safe_getUint24 hlt).bind fun _ _ => Safe.ok hlt
  · exact Safe.ok hle

theorem safe_decodeData (type : DataType) (hle : offset + size ≤ db.content.length) :
    Safe (db.decodeData type size offset) fun _ => True := by
  have hbytes (bits : ℕ) : Safe (db.content.getBytes bits size offset 0) fun _ => True :=
    Memory.safe_getBytes bits 0 hle
  rw [decodeData.eq_def]
  split
  · exact Safe.check fun _ => (hbytes 64).bind fun _ _ => Safe.ok trivial
  · exact Safe.check fun _ => (hbytes 64).bind fun _ _ => Safe.ok trivial
  · exact Safe.check fun _ => (Memory.safe_getSintX hle).bind fun _ _ => Safe.ok trivial
  · exact Safe.check fun _ => (hbytes 64).bind fun _ _ => Safe.ok trivial
  · exact Safe.check fun _ => (hbytes 128).bind fun _ _ => Safe.ok trivial
  · exact Safe.check fun hfour => (Memory.safe_getBytes 64 0 (by omega)).bind
      fun _ _ => Safe.ok trivial
  · exact Safe.check fun height => (Memory.safe_getBytes 64 0 (by omega)).bind
      fun _ _ => Safe.ok trivial
  · exact (Memory.safe_span hle).bind fun _ _ => Safe.ok trivial
  · exact (Memory.safe_span hle).bind fun _ _ => Safe.ok trivial
  · exact Safe.ok trivial

theorem safe_decodeSized (hsize : 3 ≤ db.content.length) (type : DataType) (ctrl : ℕ)
    (hle : offset ≤ db.content.length) :
    Safe (db.decodeSized type ctrl offset) fun r => r.2 ≤ db.content.length := by
  refine (safe_decodeSize hsize ctrl hle).bind fun ⟨size, next⟩ hnext => ?_
  simp only [decodeBody.eq_def]
  split
  · exact Safe.ok hnext
  · exact Safe.ok hnext
  · exact Safe.ok hnext
  · refine Safe.check fun hcheck => ?_
    have hle := add_le_of_check hcheck
    exact (safe_decodeData type hle).bind fun _ _ => Safe.ok hle

theorem safe_decodeTyped (hsize : 3 ≤ db.content.length) (type : DataType) (ctrl : ℕ)
    (hle : offset ≤ db.content.length) :
    Safe (db.decodeTyped type ctrl offset) fun r => r.2 ≤ db.content.length := by
  rw [decodeTyped]
  split_ifs
  · exact safe_decodePointer ctrl
  · exact safe_decodeSized hsize type ctrl hle

/-- **An entry is decoded from the section alone**, wherever the offset points to, and ends in
it. -/
theorem safe_decodeOne (hsize : 3 ≤ db.content.length) (offset : ℕ) :
    Safe (db.decodeOne offset) fun entry => entry.offsetToNext ≤ db.content.length := by
  refine Safe.check fun hcheck => ?_
  have hlt := add_le_of_not_sub32_lt hcheck (by omega)
  refine (Memory.safe_byte (by omega)).bind fun ctrl _ => ?_
  refine (safe_decodeType hsize ctrl hlt).bind fun ⟨type, next⟩ hnext => ?_
  refine (safe_decodeTyped hsize type ctrl hnext).bind fun ⟨datum, next⟩ hend => ?_
  exact Safe.ok hend

theorem safe_decodeOneFollow (hsize : 3 ≤ db.content.length) (offset : ℕ) :
    Safe (db.decodeOneFollow offset) fun entry => entry.offsetToNext ≤ db.content.length := by
  refine (safe_decodeOne hsize offset).bind fun entry hentry => ?_
  split
  · refine (safe_decodeOne hsize _).bind fun target htarget => ?_
    split
    · exact Safe.stop _
    · exact Safe.ok htarget
    · exact Safe.ok htarget
    · exact Safe.ok hentry
  · exact Safe.ok hentry

theorem safe_skipMapOrArray (hsize : 3 ≤ db.content.length) (left : ℕ) {entry : EntryData}
    (hentry : entry.offsetToNext ≤ db.content.length) :
    Safe (db.skipMapOrArray left entry) fun e => e.offsetToNext ≤ db.content.length := by
  induction left generalizing entry with
  | zero => exact Safe.stop _
  | succ left ih =>
    rw [skipMapOrArray]
    split
    · refine Safe.times (fun e _ => ?_) _ hentry
      exact (safe_decodeOne hsize _).bind fun _ _ => (safe_decodeOne hsize _).bind
        fun value hvalue => ih hvalue
    · refine Safe.times (fun e _ => ?_) _ hentry
      exact (safe_decodeOne hsize _).bind fun value hvalue => ih hvalue
    · exact Safe.ok hentry

theorem safe_skipOne (hsize : 3 ≤ db.content.length) (offset : ℕ) :
    Safe (db.skipOne offset) fun entry => entry.offsetToNext ≤ db.content.length :=
  (safe_decodeOne hsize offset).bind fun _ hvalue => safe_skipMapOrArray hsize _ hvalue

theorem safe_lookupPathInArray (hsize : 3 ≤ db.content.length) (pathElem : Bytes) (count : ℕ)
    {entry : EntryData} (hentry : entry.offsetToNext ≤ db.content.length) :
    Safe (db.lookupPathInArray pathElem count entry) fun e =>
      e.offsetToNext ≤ db.content.length := by
  simp only [lookupPathInArray]
  refine Safe.check fun _ => Safe.check fun _ => Safe.check fun _ => ?_
  exact (Safe.times (fun e _ => safe_skipOne hsize _) _ hentry).bind fun last _ =>
    safe_decodeOneFollow hsize _

theorem safe_lookupPathInMap (hsize : 3 ≤ db.content.length) (pathElem : Bytes) (count offset : ℕ) :
    Safe (db.lookupPathInMap pathElem count offset) fun e =>
      e.offsetToNext ≤ db.content.length := by
  induction count generalizing offset with
  | zero => exact Safe.stop _
  | succ count ih =>
    rw [lookupPathInMap]
    refine (safe_decodeOneFollow hsize offset).bind fun key _ => ?_
    split
    · split_ifs
      · exact safe_decodeOneFollow hsize _
      · exact (safe_skipOne hsize _).bind fun value _ => ih _
    · exact Safe.stop _

theorem safe_lookupPaths (hsize : 3 ≤ db.content.length) (path : List Bytes)
    {entry : EntryData} (hentry : entry.offsetToNext ≤ db.content.length) :
    Safe (db.lookupPaths path entry) fun e => e.offsetToNext ≤ db.content.length := by
  induction path generalizing entry with
  | nil => exact Safe.ok hentry
  | cons pathElem path ih =>
    have hround : Safe (db.lookupPath pathElem entry) fun e =>
        e.offsetToNext ≤ db.content.length := by
      rw [lookupPath]
      split
      · exact safe_lookupPathInArray hsize pathElem _ hentry
      · exact safe_lookupPathInMap hsize pathElem _ _
      · exact Safe.stop _
    exact hround.bind fun e he => ih he

/-- **A value is found in the section alone**, whatever its bytes are, and whatever the path. -/
theorem safe_getValue (hsize : 3 ≤ db.content.length) (offset : ℕ) (path : List Bytes) :
    Safe (db.getValue offset path) fun e => e.offsetToNext ≤ db.content.length :=
  (safe_decodeOneFollow hsize offset).bind fun _ hentry => safe_lookupPaths hsize path hentry

/-- In an empty section the first check passes, and a byte after the section is read. -/
example : (DataSection.mk [] (by decide)).decodeOne 0 = .error .fault := rfl

end DataSection

end IpRouter.MaxMindDb
