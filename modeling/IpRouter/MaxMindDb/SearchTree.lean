import IpRouter.MaxMindDb.Data
import IpRouter.Theory.BinaryTrie

/-!
# The search tree of a MaxMind database

`MMDB_lookup_sockaddr` of the vendored `maxminddb.c`, with `find_address_in_search_tree`
and `find_ipv4_start_node`. A node of the tree is a pair of records of 24, 28 or
32 bits at the beginning of the file; a record is the number of a node, or the number
of nodes where there is no network, or beyond that an offset into the data section.

`Opened` is what `MMDB_open` has checked. `lookupSockaddr_inet6` is what the tree is
for: where it stands for a `Trie`, an address is looked up as in the trie.
`lookupSockaddr_inet` says that starting at the node that was found for IPv4 when the
file was opened makes no difference, and `safe_lookupSockaddr` that nothing outside
the file is read, whatever the tree is.
-/

namespace IpRouter.MaxMindDb

open Theory

/-! ### Records -/

/-- `get_left_28_bit_record`. -/
def getLeft28BitRecord (mem : Memory) (record : ℕ) : Decode ℕ := do
  let p0 ← mem.byte record
  let p1 ← mem.byte (record + 1)
  let p2 ← mem.byte (record + 2)
  let p3 ← mem.byte (record + 3)
  return p0 * 65536 + p1 * 256 + p2 + ((p3 &&& 0xf0) <<< 20)

/-- `get_right_28_bit_record`. -/
def getRight28BitRecord (mem : Memory) (record : ℕ) : Decode ℕ := do
  let value ← mem.getUint32 record
  return value &&& 0xfffffff

/-- `record_info_s`. -/
structure RecordInfo where
  /-- `record_length`. -/
  recordLength : ℕ
  /-- `left_record_getter`. -/
  leftRecordGetter : Memory → ℕ → Decode ℕ
  /-- `right_record_getter`. -/
  rightRecordGetter : Memory → ℕ → Decode ℕ
  /-- `right_record_offset`. -/
  rightRecordOffset : ℕ

/-- `record_info_for_database`; without a result where `right_record_offset` stays `0`. -/
def recordInfoForDatabase (fullRecordByteSize : ℕ) : Option RecordInfo :=
  if fullRecordByteSize = 6 then some ⟨fullRecordByteSize, Memory.getUint24, Memory.getUint24, 3⟩
  else if fullRecordByteSize = 7 then
    some ⟨fullRecordByteSize, getLeft28BitRecord, getRight28BitRecord, 3⟩
  else if fullRecordByteSize = 8 then
    some ⟨fullRecordByteSize, Memory.getUint32, Memory.getUint32, 4⟩
  else none

variable {info : RecordInfo}

theorem safe_getLeft28BitRecord {mem : Memory} {record : ℕ} (h : record + 4 ≤ mem.length) :
    Safe (getLeft28BitRecord mem record) fun _ => True :=
  (Memory.safe_byte (by omega)).bind fun _ _ => (Memory.safe_byte (by omega)).bind fun _ _ =>
    (Memory.safe_byte (by omega)).bind fun _ _ => (Memory.safe_byte (by omega)).bind
      fun _ _ => Safe.ok trivial

theorem safe_getRight28BitRecord {mem : Memory} {record : ℕ} (h : record + 4 ≤ mem.length) :
    Safe (getRight28BitRecord mem record) fun _ => True :=
  (Memory.safe_getUint32 h).bind fun _ _ => Safe.ok trivial

/-- What `record_info_for_database` gives: both records of a node are read in it. -/
structure RecordInfo.Reads (info : RecordInfo) (size : ℕ) : Prop where
  length_eq : info.recordLength = size
  left : ∀ {mem : Memory} {record : ℕ}, record + size ≤ mem.length →
    Safe (info.leftRecordGetter mem record) fun _ => True
  right : ∀ {mem : Memory} {record : ℕ}, record + size ≤ mem.length →
    Safe (info.rightRecordGetter mem (record + info.rightRecordOffset)) fun _ => True

theorem reads_of_recordInfoForDatabase {size : ℕ} (h : recordInfoForDatabase size = some info) :
    info.Reads size := by
  rw [recordInfoForDatabase] at h
  split_ifs at h with h₆ h₇ h₈
  · cases h
    exact ⟨rfl, fun hle => Memory.safe_getUint24 (by omega),
      fun hle => Memory.safe_getUint24 (by simp only; omega)⟩
  · cases h
    exact ⟨rfl, fun hle => safe_getLeft28BitRecord (by omega),
      fun hle => safe_getRight28BitRecord (by simp only; omega)⟩
  · cases h
    exact ⟨rfl, fun hle => Memory.safe_getUint32 (by omega),
      fun hle => Memory.safe_getUint32 (by simp only; omega)⟩

/-! ### The database -/

/-- `MMDB_ipv4_start_node_s`. -/
structure Ipv4StartNode where
  /-- `netmask`. -/
  netmask : ℕ
  /-- `node_value`. -/
  nodeValue : ℕ
  deriving DecidableEq

/-- `MMDB_s`, with what a lookup uses of its metadata. -/
structure Mmdb where
  /-- `file_content`. -/
  fileContent : Memory
  /-- Where in the file `data_section` is. -/
  dataSectionStart : ℕ
  /-- `data_section`, with `data_section_size`. -/
  dataSection : DataSection
  /-- `metadata.node_count`. -/
  nodeCount : ℕ
  /-- `metadata.ip_version`. -/
  ipVersion : ℕ
  /-- `full_record_byte_size`. -/
  fullRecordByteSize : ℕ
  /-- `depth`. -/
  depth : ℕ
  /-- `ipv4_start_node`. -/
  ipv4StartNode : Ipv4StartNode

/-- The result of a lookup that reports no error. -/
structure LookupResult where
  /-- `found_entry`. -/
  foundEntry : Bool
  /-- `netmask`. -/
  netmask : ℕ
  /-- `entry.offset`. -/
  offset : ℕ
  deriving DecidableEq

/-- A socket address. -/
inductive Sockaddr where
  /-- `AF_INET`. -/
  | inet (address : Bytes) (length_eq : address.length = 4)
  /-- `AF_INET6`. -/
  | inet6 (address : Bytes) (length_eq : address.length = 16)

/-- `MMDB_DATA_SECTION_SEPARATOR`. -/
def dataSectionSeparator : ℕ := 16

namespace Mmdb

/-- Read the record of a node on the side of a bit. -/
def readRecord (db : Mmdb) (info : RecordInfo) (value : ℕ) (bit : Bool) : Decode ℕ :=
  let recordPointer := value * info.recordLength
  if db.dataSectionStart < recordPointer + info.recordLength then Checked.stop .corruptSearchTree
  else if bit then info.rightRecordGetter db.fileContent (recordPointer + info.rightRecordOffset)
  else info.leftRecordGetter db.fileContent recordPointer

/-- The bit of an address with a number. -/
def addressBit (address : Bytes) (currentBit : ℕ) : Decode Bool := do
  let byte ← Memory.byte address (currentBit >>> 3)
  return 1 &&& (byte >>> (7 - currentBit % 8)) ≠ 0

/-- The loop of `find_address_in_search_tree`, where `left` is by how much
`current_bit` is below the depth. -/
def searchLoop (db : Mmdb) (info : RecordInfo) (address : Bytes) : ℕ → ℕ → ℕ → Decode (ℕ × ℕ)
  | 0, currentBit, value => .ok (currentBit, value)
  | left + 1, currentBit, value =>
    if value < db.nodeCount then do
      let bit ← addressBit address currentBit
      let value ← db.readRecord info value bit
      db.searchLoop info address left (currentBit + 1) value
    else .ok (currentBit, value)

/-- `data_section_offset_for_record`. -/
def dataSectionOffsetForRecord (db : Mmdb) (record : ℕ) : ℕ :=
  sub32 (sub32 (record % 2 ^ 32) db.nodeCount) dataSectionSeparator

/-- What `find_address_in_search_tree` makes of the record it ends with. -/
def resultOf (db : Mmdb) (currentBit value : ℕ) : Decode LookupResult :=
  if db.nodeCount + db.dataSection.content.length ≤ value then Checked.stop .corruptSearchTree
  else if value = db.nodeCount then .ok ⟨false, currentBit, 0⟩
  else .ok ⟨true, currentBit, db.dataSectionOffsetForRecord value⟩

/-- `find_address_in_search_tree`. -/
def findAddressInSearchTree (db : Mmdb) (address : Bytes) (inet : Bool) : Decode LookupResult :=
  match recordInfoForDatabase db.fullRecordByteSize with
  | none => Checked.stop .unknownDatabaseFormat
  | some info => do
    let start := if db.ipVersion = 6 ∧ inet then db.ipv4StartNode else ⟨0, 0⟩
    let last ← db.searchLoop info address (db.depth - start.netmask) start.netmask start.nodeValue
    db.resultOf last.1 last.2

/-- The loop of `find_ipv4_start_node`, where `left` is by how much `netmask` is below 96. -/
def ipv4StartLoop (db : Mmdb) (info : RecordInfo) : ℕ → Ipv4StartNode → Decode Ipv4StartNode
  | 0, start => .ok start
  | left + 1, start =>
    if start.nodeValue < db.nodeCount then do
      let nodeValue ← db.readRecord info start.nodeValue false
      db.ipv4StartLoop info left ⟨start.netmask + 1, nodeValue⟩
    else .ok start

/-- `find_ipv4_start_node`: the node it leaves in `ipv4_start_node`. -/
def findIpv4StartNode (db : Mmdb) : Decode Ipv4StartNode :=
  if db.ipv4StartNode.nodeValue ≠ 0 then .ok db.ipv4StartNode
  else
    match recordInfoForDatabase db.fullRecordByteSize with
    | none => Checked.stop .unknownDatabaseFormat
    | some info => db.ipv4StartLoop info 96 ⟨0, 0⟩

/-- An IPv4 address as it is looked up in a database for IPv6. -/
def mappedAddress (address : Bytes) : Bytes := List.replicate 12 0 ++ address

/-- `MMDB_lookup_sockaddr`. -/
def lookupSockaddr (db : Mmdb) (sockaddr : Sockaddr) : Decode LookupResult :=
  if db.ipVersion = 4 then
    match sockaddr with
    | .inet6 _ _ => Checked.stop .ipv6LookupInIpv4Database
    | .inet address _ => db.findAddressInSearchTree address true
  else
    match sockaddr with
    | .inet6 address _ => db.findAddressInSearchTree address false
    | .inet address _ => db.findAddressInSearchTree (mappedAddress address) true

/-! ### What was checked -/

/-- What `MMDB_open` has checked, and computed. -/
structure Opened (db : Mmdb) : Prop where
  /-- The size of a node is one of those there are. -/
  record_mem : db.fullRecordByteSize ∈ [6, 7, 8]
  /-- The data section comes after the tree. -/
  start_eq : db.dataSectionStart = db.nodeCount * db.fullRecordByteSize + dataSectionSeparator
  /-- It is what there is of the file from there on. -/
  content_eq : db.dataSection.content = db.fileContent.drop db.dataSectionStart
  /-- It has three bytes. -/
  three_le : 3 ≤ db.dataSection.content.length
  /-- Numbers of nodes are `uint32_t`. -/
  nodeCount_lt : db.nodeCount < 2 ^ 32
  /-- An address of the database has as many bits as the tree may be deep. -/
  version : db.ipVersion = 4 ∧ db.depth = 32 ∨ db.ipVersion = 6 ∧ db.depth = 128
  /-- The node for IPv4 was found from the root. -/
  ipv4_start : db.ipVersion = 6 →
    { db with ipv4StartNode := ⟨0, 0⟩ }.findIpv4StartNode = .ok db.ipv4StartNode

variable {db : Mmdb} {address : Bytes}

/-! ### What is read -/

theorem Opened.start_le (h : db.Opened) : db.dataSectionStart ≤ db.fileContent.length := by
  have hlength := h.three_le
  rw [h.content_eq, List.length_drop] at hlength
  omega

theorem Opened.exists_info (h : db.Opened) :
    ∃ info, recordInfoForDatabase db.fullRecordByteSize = some info := by
  have hmem := h.record_mem
  simp only [List.mem_cons, List.not_mem_nil, or_false] at hmem
  rcases hmem with hsize | hsize | hsize <;> exact ⟨_, by rw [hsize]; rfl⟩

/-- **A record is read in the tree**, whatever the number of the node. -/
theorem safe_readRecord (hstart : db.dataSectionStart ≤ db.fileContent.length)
    (hinfo : info.Reads db.fullRecordByteSize) (value : ℕ) (bit : Bool) :
    Safe (db.readRecord info value bit) fun _ => True := by
  refine Safe.check fun hcheck => ?_
  have hle : value * info.recordLength + db.fullRecordByteSize ≤ db.fileContent.length := by
    rw [Nat.not_lt] at hcheck
    rw [← hinfo.length_eq]
    exact hcheck.trans hstart
  split_ifs
  · exact hinfo.right hle
  · exact hinfo.left hle

theorem safe_addressBit {currentBit : ℕ} (h : currentBit < 8 * address.length) :
    Safe (addressBit address currentBit) fun _ => True := by
  have hbyte : currentBit >>> 3 < address.length := by
    rw [Nat.shiftRight_eq_div_pow]
    omega
  exact (Memory.safe_byte hbyte).bind fun _ _ => Safe.ok trivial

theorem safe_searchLoop (h : db.Opened) (hinfo : info.Reads db.fullRecordByteSize)
    {left currentBit : ℕ} (value : ℕ) (hbits : currentBit + left ≤ 8 * address.length) :
    Safe (db.searchLoop info address left currentBit value) fun r => r.1 ≤ currentBit + left := by
  induction left generalizing currentBit value with
  | zero => exact Safe.ok le_rfl
  | succ left ih =>
    rw [searchLoop]
    split_ifs
    · refine (safe_addressBit (by omega)).bind fun bit _ => ?_
      refine (safe_readRecord h.start_le hinfo value bit).bind fun next _ => ?_
      exact (ih next (by omega)).mono fun r hr => by omega
    · exact Safe.ok (by simp only; omega)

theorem netmask_le_of_ipv4StartLoop {left : ℕ} {start last : Ipv4StartNode}
    (h : db.ipv4StartLoop info left start = .ok last) : last.netmask ≤ start.netmask + left := by
  induction left generalizing start with
  | zero =>
    cases h
    exact le_rfl
  | succ left ih =>
    rw [ipv4StartLoop] at h
    split_ifs at h
    · obtain ⟨nodeValue, -, hrest⟩ := Checked.bind_eq_ok.mp h
      have hle := ih hrest
      simp only at hle
      omega
    · cases h
      exact Nat.le_add_right _ _

/-- What the start node is for. -/
theorem Opened.ipv4StartLoop (h : db.Opened) (hversion : db.ipVersion = 6)
    (hinfo : recordInfoForDatabase db.fullRecordByteSize = some info) :
    db.ipv4StartLoop info 96 ⟨0, 0⟩ = .ok db.ipv4StartNode := by
  have hstart := h.ipv4_start hversion
  have hsame {left : ℕ} {start : Ipv4StartNode} :
      { db with ipv4StartNode := ⟨0, 0⟩ }.ipv4StartLoop info left start =
          db.ipv4StartLoop info left start := by
    induction left generalizing start with
    | zero => rfl
    | succ left ih =>
      rw [Mmdb.ipv4StartLoop, Mmdb.ipv4StartLoop]
      simp only [ih]
      rfl
  rw [findIpv4StartNode, if_neg (not_not.mpr rfl)] at hstart
  simp only [hinfo] at hstart
  exact hsame.symm.trans hstart

theorem safe_resultOf (currentBit value : ℕ) :
    Safe (db.resultOf currentBit value) fun r => r.netmask = currentBit := by
  refine Safe.check fun _ => ?_
  split_ifs
  · exact Safe.ok rfl
  · exact Safe.ok rfl

theorem safe_findAddressInSearchTree (h : db.Opened) (inet : Bool)
    (haddress : db.depth ≤ 8 * address.length) :
    Safe (db.findAddressInSearchTree address inet) fun r => r.netmask ≤ db.depth := by
  obtain ⟨info, hinfo⟩ := h.exists_info
  have hreads := reads_of_recordInfoForDatabase hinfo
  simp only [findAddressInSearchTree, hinfo]
  have hle : (if db.ipVersion = 6 ∧ inet then db.ipv4StartNode else ⟨0, 0⟩).netmask ≤ db.depth := by
    split_ifs with hsix
    · have hmask := netmask_le_of_ipv4StartLoop (h.ipv4StartLoop hsix.1 hinfo)
      have hversion := h.version
      simp only at hmask
      omega
    · exact Nat.zero_le _
  refine (safe_searchLoop h hreads _ (by omega)).bind fun last hlast => ?_
  exact (safe_resultOf last.1 last.2).mono fun r hr => by omega

/-- **An address is looked up in the file alone**, whatever the search tree is, and the length of
the network that is reported is that of an address at most. -/
theorem safe_lookupSockaddr (h : db.Opened) (sockaddr : Sockaddr) :
    Safe (db.lookupSockaddr sockaddr) fun r => r.netmask ≤ db.depth := by
  have hversion := h.version
  cases sockaddr with
  | inet address hlength =>
    have hmapped : (mappedAddress address).length = 16 := by simp [mappedAddress, hlength]
    simp only [lookupSockaddr]
    split_ifs
    · exact safe_findAddressInSearchTree h true (by omega)
    · exact safe_findAddressInSearchTree h true (by omega)
  | inet6 address hlength =>
    simp only [lookupSockaddr]
    split_ifs
    · exact Safe.stop _
    · exact safe_findAddressInSearchTree h false (by omega)

/-! ### The node for IPv4 -/

theorem ipv4StartLoop_of_le (left : ℕ) {start : Ipv4StartNode}
    (h : db.nodeCount ≤ start.nodeValue) :
    db.ipv4StartLoop info left start = .ok start := by
  cases left with
  | zero => rfl
  | succ left => rw [Mmdb.ipv4StartLoop, if_neg (Nat.not_lt.mpr h)]

/-- **The loop over an address begins as the loop that looks for the node**, as long as the
bits of the address are `0`. -/
theorem searchLoop_of_ipv4StartLoop (extra : ℕ) {left : ℕ} {start last : Ipv4StartNode}
    (hzero : ∀ i < start.netmask + left, addressBit address i = .ok false)
    (h : db.ipv4StartLoop info left start = .ok last) :
    db.searchLoop info address (start.netmask + left + extra - start.netmask) start.netmask
      start.nodeValue =
      db.searchLoop info address (start.netmask + left + extra - last.netmask) last.netmask
        last.nodeValue := by
  induction left generalizing start with
  | zero =>
    cases h
    rfl
  | succ left ih =>
    rw [Mmdb.ipv4StartLoop] at h
    split_ifs at h with hnode
    · obtain ⟨nodeValue, hrecord, hrest⟩ := Checked.bind_eq_ok.mp h
      have hleft : start.netmask + (left + 1) + extra - start.netmask = left + extra + 1 := by omega
      have hih := ih (fun i hi => hzero i (by simp only at hi; omega)) hrest
      have hleft' : start.netmask + 1 + left + extra - (start.netmask + 1) = left + extra := by
        omega
      simp only [hleft'] at hih
      rw [hleft, searchLoop, if_pos hnode, hzero _ (by omega), Checked.ok_bind,
        hrecord, Checked.ok_bind, hih, Nat.add_right_comm start.netmask 1 left,
        Nat.add_assoc start.netmask left 1]
    · cases h
      rfl

theorem addressBit_mappedAddress {i : ℕ} (hi : i < 96) :
    addressBit (mappedAddress address) i = .ok false := by
  have hbyte : i >>> 3 < 12 := by
    rw [Nat.shiftRight_eq_div_pow]
    omega
  have hat : (mappedAddress address)[i >>> 3]? = some 0 := by
    rw [mappedAddress, List.getElem?_append_left (by rwa [List.length_replicate]),
      List.getElem?_replicate, if_pos hbyte]
  simp [addressBit, Memory.byte, hat]

theorem findAddressInSearchTree_mappedAddress (h : db.Opened) (hversion : db.ipVersion = 6) :
    db.findAddressInSearchTree (mappedAddress address) true =
      db.findAddressInSearchTree (mappedAddress address) false := by
  obtain ⟨info, hinfo⟩ := h.exists_info
  have hdepth : db.depth = 128 := by
    have hcases := h.version
    omega
  have hzero : ∀ i < 0 + 96, addressBit (mappedAddress address) i = .ok false :=
    fun i hi => addressBit_mappedAddress (by omega)
  have hloop := searchLoop_of_ipv4StartLoop 32 hzero (h.ipv4StartLoop hversion hinfo)
  simp only [Nat.zero_add, Nat.sub_zero] at hloop
  simp [findAddressInSearchTree, hinfo, hversion, hdepth, hloop]

/-- **An IPv4 address is looked up as if from the root**: in a database for IPv6 it makes no
difference that the search begins at the node that was found when the file was opened. -/
theorem lookupSockaddr_inet (h : db.Opened) (hversion : db.ipVersion = 6)
    (hlength : address.length = 4) :
    db.lookupSockaddr (.inet address hlength) =
      db.lookupSockaddr (.inet6 (mappedAddress address) (by simp [mappedAddress, hlength])) := by
  simp only [lookupSockaddr, hversion]
  exact findAddressInSearchTree_mappedAddress h hversion

/-- A database of 97 nodes: 96 times `0` leads to the last one, under which there is an entry for
the IPv4 addresses that begin with `1`, and nothing else is in it. -/
def halfOfIpv4 : Mmdb where
  fileContent := (List.range 96).flatMap (fun i => [0, 0, UInt8.ofNat (i + 1), 0, 0, 97]) ++
    [0, 0, 97, 0, 0, 113] ++
    List.replicate 34 0
  dataSectionStart := 598
  dataSection := ⟨List.replicate 18 0, by decide⟩
  nodeCount := 97
  ipVersion := 6
  fullRecordByteSize := 6
  depth := 128
  ipv4StartNode := ⟨96, 96⟩

theorem halfOfIpv4_opened : halfOfIpv4.Opened where
  record_mem := by decide
  start_eq := rfl
  content_eq := by decide +kernel
  three_le := by decide
  nodeCount_lt := by decide
  version := Or.inr ⟨rfl, rfl⟩
  ipv4_start _ := by decide +kernel

/-- From the root the entry is found under 97 bits, and so it is from the node for IPv4. -/
theorem lookupSockaddr_inet_halfOfIpv4 :
    halfOfIpv4.lookupSockaddr (.inet [203, 0, 113, 7] rfl) = .ok ⟨true, 97, 0⟩ :=
  (lookupSockaddr_inet halfOfIpv4_opened rfl rfl).trans (by decide +kernel)

/-! ### What the tree is for -/

/-- A record stands for a tree: of networks with the offsets of their entries in the data
section. -/
inductive Represents (db : Mmdb) (info : RecordInfo) : ℕ → Trie ℕ → Prop
  /-- The number of nodes: no network. -/
  | empty : Represents db info db.nodeCount .empty
  /-- More than the number of nodes: an entry. -/
  | leaf {offset : ℕ} : dataSectionSeparator + offset < db.dataSection.content.length →
      db.nodeCount + dataSectionSeparator + offset < 2 ^ 32 →
      Represents db info (db.nodeCount + dataSectionSeparator + offset) (.leaf offset)
  /-- The number of a node. -/
  | node {value left right : ℕ} {zero one : Trie ℕ} : value < db.nodeCount →
      db.readRecord info value false = .ok left → db.readRecord info value true = .ok right →
      Represents db info left zero → Represents db info right one →
      Represents db info value (.node zero one)

/-- The bits of an address, the first one first. -/
def addressBits (address : Bytes) : List Bool :=
  (List.range (8 * address.length)).map fun i =>
    1 &&& ((address.getD (i >>> 3) 0).toNat >>> (7 - i % 8)) ≠ 0

@[simp] theorem length_addressBits (address : Bytes) :
    (addressBits address).length = 8 * address.length := by
  simp [addressBits]

theorem addressBit_eq {i : ℕ} (hi : i < (addressBits address).length) :
    addressBit address i = .ok (addressBits address)[i] := by
  have hbyte : i >>> 3 < address.length := by
    rw [length_addressBits] at hi
    rw [Nat.shiftRight_eq_div_pow]
    omega
  simp [addressBit, Memory.byte, addressBits, List.getElem?_eq_getElem hbyte,
    List.getD_eq_getElem?_getD]

/-- The record for what is found. -/
def recordOf (db : Mmdb) : Option ℕ → ℕ
  | none => db.nodeCount
  | some offset => db.nodeCount + dataSectionSeparator + offset

/-- **The loop goes down the tree the record stands for.** -/
theorem searchLoop_represents {t : Trie ℕ} {value left currentBit : ℕ}
    (ht : db.Represents info value t) (hheight : t.height ≤ left)
    (hbits : currentBit + left ≤ (addressBits address).length) :
    db.searchLoop info address left currentBit value =
      .ok (currentBit + (t.lookup ((addressBits address).drop currentBit)).1,
        db.recordOf (t.lookup ((addressBits address).drop currentBit)).2) := by
  induction ht generalizing left currentBit with
  | empty =>
    cases left with
    | zero => rfl
    | succ left =>
      rw [searchLoop, if_neg (lt_irrefl _)]
      rfl
  | leaf hin hlt =>
    cases left with
    | zero => rfl
    | succ left =>
      rw [searchLoop, if_neg (by omega)]
      rfl
  | @node value l r zero one hnode hleft hright _ _ ihzero ihone =>
    cases left with
    | zero => simp [Trie.height] at hheight
    | succ left =>
      have hlt : currentBit < (addressBits address).length := by omega
      rw [Trie.height] at hheight
      rw [searchLoop, if_pos hnode, addressBit_eq hlt, Checked.ok_bind,
        List.drop_eq_getElem_cons hlt, Trie.lookup_cons]
      cases (addressBits address)[currentBit]
      · rw [hleft, Checked.ok_bind, ihzero (by omega) (by omega)]
        simp only [Bool.false_eq_true, if_false, Nat.add_assoc, Nat.add_comm 1]
      · rw [hright, Checked.ok_bind, ihone (by omega) (by omega)]
        simp only [if_true, Nat.add_assoc, Nat.add_comm 1]

/-- What is reported for a lookup in a tree. -/
def reportOf (found : ℕ × Option ℕ) : LookupResult := ⟨found.2.isSome, found.1, found.2.getD 0⟩

theorem resultOf_recordOf (hpos : 0 < db.dataSection.content.length) (n : ℕ) {found : Option ℕ}
    (hfound : ∀ offset ∈ found, dataSectionSeparator + offset < db.dataSection.content.length ∧
      db.nodeCount + dataSectionSeparator + offset < 2 ^ 32) :
    db.resultOf n (db.recordOf found) = .ok (reportOf (n, found)) := by
  cases found with
  | none => rw [resultOf, recordOf, if_neg (by omega), if_pos rfl]; rfl
  | some offset =>
    obtain ⟨hin, hfits⟩ := hfound offset rfl
    have hoffset : db.dataSectionOffsetForRecord
        (db.nodeCount + dataSectionSeparator + offset) = offset := by
      have hinner : sub32 (db.nodeCount + dataSectionSeparator + offset) db.nodeCount =
          dataSectionSeparator + offset :=
        (sub32_of_le (by omega)).trans (by omega)
      rw [dataSectionOffsetForRecord, Nat.mod_eq_of_lt hfits, hinner,
        sub32_of_le (Nat.le_add_right _ _), Nat.add_sub_cancel_left]
    rw [resultOf, recordOf, if_neg (by omega),
      if_neg (by simp only [dataSectionSeparator]; omega), hoffset]
    rfl

/-- What is found in the tree of a record is in the data section. -/
theorem Represents.lookup {t : Trie ℕ} {value : ℕ} (ht : db.Represents info value t)
    (bits : List Bool) :
    ∀ offset ∈ (t.lookup bits).2, dataSectionSeparator + offset < db.dataSection.content.length ∧
      db.nodeCount + dataSectionSeparator + offset < 2 ^ 32 := by
  induction ht generalizing bits with
  | empty => simp [Trie.lookup]
  | leaf hin hlt =>
    intro offset hoffset
    obtain rfl := Option.mem_some.mp hoffset
    exact ⟨hin, hlt⟩
  | node _ _ _ _ _ ihzero ihone =>
    cases bits with
    | nil => simp [Trie.lookup]
    | cons bit bits =>
      rw [Trie.lookup_cons]
      cases bit
      · exact ihzero bits
      · exact ihone bits

theorem findAddressInSearchTree_root {t : Trie ℕ} (h : db.Opened) (ht : db.Represents info 0 t)
    (hinfo : recordInfoForDatabase db.fullRecordByteSize = some info)
    (hheight : t.height ≤ db.depth) (inet : Bool) (hroot : ¬(db.ipVersion = 6 ∧ inet))
    (haddress : 8 * address.length = db.depth) :
    db.findAddressInSearchTree address inet = .ok (reportOf (t.lookup (addressBits address))) := by
  have hpos : 0 < db.dataSection.content.length := lt_of_lt_of_le (by omega) h.three_le
  simp only [findAddressInSearchTree, hinfo, if_neg hroot, Nat.sub_zero]
  rw [searchLoop_represents ht hheight (by rw [length_addressBits]; omega), Checked.ok_bind,
    List.drop_zero, Nat.zero_add]
  exact resultOf_recordOf hpos _ (ht.lookup _)

/-- The address that is looked up in the tree for a socket address, if there is one. -/
def treeAddress (db : Mmdb) : Sockaddr → Option Bytes
  | .inet address _ => some (if db.ipVersion = 4 then address else mappedAddress address)
  | .inet6 address _ => if db.ipVersion = 4 then none else some address

/-- The address that is looked up has as many bits as the tree may be deep. -/
theorem length_treeAddress {sockaddr : Sockaddr} (h : db.Opened)
    (haddress : db.treeAddress sockaddr = some address) :
    8 * address.length = db.depth := by
  have hversion := h.version
  cases sockaddr with
  | inet a ha =>
    simp only [treeAddress, Option.some.injEq] at haddress
    subst haddress
    split_ifs
    · omega
    · simp only [mappedAddress, List.length_append, List.length_replicate]
      omega
  | inet6 a ha =>
    simp only [treeAddress] at haddress
    split_ifs at haddress
    cases haddress
    omega

/-- **A lookup is a lookup in the tree**: what is reported for an address is what
the tree has for its bits. -/
theorem lookupSockaddr_eq {t : Trie ℕ} {sockaddr : Sockaddr} (h : db.Opened)
    (hinfo : recordInfoForDatabase db.fullRecordByteSize = some info) (ht : db.Represents info 0 t)
    (hheight : t.height ≤ db.depth) (haddress : db.treeAddress sockaddr = some address) :
    db.lookupSockaddr sockaddr = .ok (reportOf (t.lookup (addressBits address))) := by
  have hroot6 (a : Bytes) (ha : a.length = 16) (hsix : db.ipVersion = 6) :
      db.lookupSockaddr (.inet6 a ha) = .ok (reportOf (t.lookup (addressBits a))) := by
    have hdepth := h.version
    simp only [lookupSockaddr, hsix]
    exact findAddressInSearchTree_root h ht hinfo hheight false (by simp) (by omega)
  rcases h.version with ⟨hversion, hdepth⟩ | ⟨hversion, hdepth⟩
  · cases sockaddr with
    | inet a ha =>
      simp only [treeAddress, hversion, if_true, Option.some.injEq] at haddress
      subst haddress
      simp only [lookupSockaddr, hversion, if_true]
      exact findAddressInSearchTree_root h ht hinfo hheight true (by omega) (by omega)
    | inet6 a ha => simp [treeAddress, hversion] at haddress
  · cases sockaddr with
    | inet a ha =>
      simp [treeAddress, hversion] at haddress
      subst haddress
      have hsix := hroot6 (mappedAddress a) (by simp [mappedAddress, ha]) hversion
      simp only [lookupSockaddr, hversion] at hsix ⊢
      exact (findAddressInSearchTree_mappedAddress h hversion).trans hsix
    | inet6 a ha =>
      simp [treeAddress, hversion] at haddress
      subst haddress
      exact hroot6 _ _ hversion

/-- **What is found is the network the address is in**: the length of the network and the offset of
its entry are reported exactly if the tree has the network, and nothing is found exactly if it has
none with the address in it. -/
theorem lookupSockaddr_networks {t : Trie ℕ} {sockaddr : Sockaddr} (h : db.Opened)
    (hinfo : recordInfoForDatabase db.fullRecordByteSize = some info) (ht : db.Represents info 0 t)
    (hheight : t.height ≤ db.depth) (haddress : db.treeAddress sockaddr = some address) :
    (∀ netmask offset, db.lookupSockaddr sockaddr = .ok ⟨true, netmask, offset⟩ ↔
      netmask ≤ db.depth ∧ ((addressBits address).take netmask, offset) ∈ t.networks) ∧
    ((∃ netmask, db.lookupSockaddr sockaddr = .ok ⟨false, netmask, 0⟩) ↔
      ∀ net ∈ t.networks, ¬net.1 <+: addressBits address) := by
  have hbits : (addressBits address).length = db.depth :=
    (length_addressBits address).trans (length_treeAddress h haddress)
  rw [← hbits] at hheight ⊢
  rw [lookupSockaddr_eq h hinfo ht (hbits ▸ hheight) haddress]
  constructor
  · intro netmask offset
    rw [← Trie.lookup_eq_some_iff hheight]
    obtain ⟨n, found⟩ := t.lookup (addressBits address)
    cases found <;> simp [reportOf]
  · rw [← Trie.lookup_eq_none_iff hheight]
    obtain ⟨n, found⟩ := t.lookup (addressBits address)
    cases found <;> simp [reportOf]

/-- A database of one node: nothing for the addresses that begin with `0`, and an entry for
those that begin with `1`. -/
def oneNode : Mmdb where
  fileContent := [0, 0, 1, 0, 0, 17] ++ List.replicate 34 0
  dataSectionStart := 22
  dataSection := ⟨List.replicate 18 0, by decide⟩
  nodeCount := 1
  ipVersion := 6
  fullRecordByteSize := 6
  depth := 128
  ipv4StartNode := ⟨1, 1⟩

theorem oneNode_opened : oneNode.Opened where
  record_mem := by decide
  start_eq := rfl
  content_eq := rfl
  three_le := by decide
  nodeCount_lt := by decide
  version := Or.inr ⟨rfl, rfl⟩
  ipv4_start _ := by
    have hrecord : readRecord { oneNode with ipv4StartNode := ⟨0, 0⟩ }
        ⟨6, Memory.getUint24, Memory.getUint24, 3⟩ 0 false =
        .ok 1 := rfl
    have hstep := @ipv4StartLoop.eq_2 { oneNode with ipv4StartNode := ⟨0, 0⟩ }
      ⟨6, Memory.getUint24, Memory.getUint24, 3⟩
      ⟨0, 0⟩ 95
    rw [if_pos (show 0 < oneNode.nodeCount by decide), hrecord, Checked.ok_bind] at hstep
    exact hstep.trans (ipv4StartLoop_of_le 95 le_rfl)

theorem oneNode_represents :
    oneNode.Represents ⟨6, Memory.getUint24, Memory.getUint24, 3⟩ 0 (.node .empty (.leaf 0)) := by
  have hempty : oneNode.Represents ⟨6, Memory.getUint24, Memory.getUint24, 3⟩ 1 .empty := .empty
  have hleaf : oneNode.Represents ⟨6, Memory.getUint24, Memory.getUint24, 3⟩ 17 (.leaf 0) :=
    @Represents.leaf oneNode _ 0 (by decide) (by decide)
  exact .node (by decide) rfl rfl hempty hleaf

theorem lookupSockaddr_networks_oneNode :
    oneNode.lookupSockaddr (.inet6 (List.replicate 16 255) rfl) = .ok ⟨true, 1, 0⟩ :=
  ((lookupSockaddr_networks oneNode_opened rfl oneNode_represents (by decide) rfl).1 1 0).mpr
    ⟨by decide, by decide⟩

end Mmdb

end IpRouter.MaxMindDb
