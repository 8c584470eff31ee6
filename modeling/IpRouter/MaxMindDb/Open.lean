import IpRouter.MaxMindDb.SearchTree

/-!
# Opening a MaxMind database

`MMDB_open` of the vendored `maxminddb.c`: the metadata stand after the last marker
in the file, in the format of the data section, and say how large the search tree is;
what follows the tree is the data section. `MMDB_get_entry_data_list`, with which the
languages and the descriptions are read, lists a value with all it contains.

`safe_mmdbOpen` says two things, if three bytes follow the last marker: no byte
outside the file is read while it is opened, and a file that is opened satisfies
what the lookups rely on (`Mmdb.Opened`).
-/

namespace IpRouter.MaxMindDb

open Theory

/-! ### Lists of entries -/

namespace DataSection

/-- `get_entry_data_list`, where `left` is by how much `depth` is below the maximum: the entry, and
the members of the list after it. -/
def getEntryDataList (db : DataSection) : ℕ → ℕ → Decode (EntryData × List EntryData)
  | 0, _ => Checked.stop .invalidData
  | left + 1, offset => do
    let entry ← db.decodeOne offset
    match entry.datum with
    | .pointer pointer => do
      let target ← db.decodeOne pointer
      match target.datum with
      | .pointer _ => Checked.stop .invalidData
      | .array _ => do
        let list ← db.getEntryDataList left pointer
        return ({ list.1 with offsetToNext := entry.offsetToNext }, list.2)
      | .map _ => do
        let list ← db.getEntryDataList left pointer
        return ({ list.1 with offsetToNext := entry.offsetToNext }, list.2)
      | _ => return ({ target with offsetToNext := entry.offsetToNext }, [])
    | .array size =>
      if db.content.length < entry.offsetToNext ∨
          sub32 db.content.length entry.offsetToNext < size then
        Checked.stop .invalidData
      else do
        let last ← Checked.times (fun acc => do
          let value ← db.getEntryDataList left acc.1
          return (value.1.offsetToNext, acc.2 ++ value.1 :: value.2)) size (entry.offsetToNext, [])
        return ({ entry with offsetToNext := last.1 }, last.2)
    | .map size =>
      if db.content.length < entry.offsetToNext ∨
          sub32 db.content.length entry.offsetToNext / 2 < size then
        Checked.stop .invalidData
      else do
        let last ← Checked.times (fun acc => do
          let key ← db.getEntryDataList left acc.1
          let value ← db.getEntryDataList left key.1.offsetToNext
          return (value.1.offsetToNext, acc.2 ++ key.1 :: key.2 ++ value.1 :: value.2)) size
            (entry.offsetToNext, [])
        return ({ entry with offsetToNext := last.1 }, last.2)
    | _ => return (entry, [])

end DataSection

/-- The loops over a list that take texts: `count` of them, one member after the other. -/
def takeTexts : ℕ → List EntryData → Decode (List Bytes)
  | 0, _ => .ok []
  | _ + 1, [] => .error .fault
  | count + 1, member :: members =>
    match member.datum with
    | .utf8String utf8String => do
      let texts ← takeTexts count members
      return cString utf8String :: texts
    | _ => Checked.stop .invalidMetadata

/-! ### Metadata -/

/-- `MMDB_metadata_s`. -/
structure Metadata where
  /-- `node_count`. -/
  nodeCount : ℕ
  /-- `record_size`. -/
  recordSize : ℕ
  /-- `ip_version`. -/
  ipVersion : ℕ
  /-- `database_type`. -/
  databaseType : Bytes
  /-- `languages`. -/
  languages : List Bytes
  /-- `binary_format_major_version`. -/
  binaryFormatMajorVersion : ℕ
  /-- `binary_format_minor_version`. -/
  binaryFormatMinorVersion : ℕ
  /-- `build_epoch`. -/
  buildEpoch : ℕ
  /-- `description`: languages and texts by turns. -/
  description : List Bytes

/-- `METADATA_MARKER`. -/
def metadataMarker : Bytes := 0xab :: 0xcd :: 0xef :: text "MaxMind.com"

/-- `METADATA_BLOCK_MAX_SIZE`. -/
def metadataBlockMaxSize : ℕ := 131072

/-- `mmdb_memmem`: what begins with the first occurrence of `s`. -/
def memmem (s : Bytes) : Bytes → Option Bytes
  | [] => none
  | c :: l => if s.isPrefixOf (c :: l) then some (c :: l) else memmem s l

/-- The loop of `find_metadata`, in at most `fuel` rounds: what follows the last marker. -/
def findMetadataLoop : ℕ → Bytes → Bytes
  | 0, searchArea => searchArea
  | fuel + 1, searchArea =>
    match memmem metadataMarker searchArea with
    | none => searchArea
    | some found => findMetadataLoop fuel (found.drop metadataMarker.length)

/-- Where `find_metadata` looks. -/
def searchArea (fileContent : Memory) : Bytes :=
  fileContent.drop (fileContent.length - min fileContent.length metadataBlockMaxSize)

theorem length_le_of_memmem {s l found : Bytes} (h : memmem s l = some found) :
    found.length ≤ l.length := by
  induction l with
  | nil => cases h
  | cons c l ih =>
    rw [memmem] at h
    split_ifs at h
    · cases h
      exact le_rfl
    · exact (ih h).trans (Nat.le_succ _)

theorem length_findMetadataLoop_le (fuel : ℕ) (area : Bytes) :
    (findMetadataLoop fuel area).length ≤ area.length := by
  induction fuel generalizing area with
  | zero => exact le_rfl
  | succ fuel ih =>
    rw [findMetadataLoop]
    split
    · exact le_rfl
    · rename_i found hfound
      refine (ih _).trans ?_
      rw [List.length_drop]
      exact (Nat.sub_le _ _).trans (length_le_of_memmem hfound)

theorem length_searchArea_le (fileContent : Memory) :
    (searchArea fileContent).length ≤ metadataBlockMaxSize := by
  rw [searchArea, List.length_drop]
  omega

/-- `find_metadata`: the metadata, as the data section of a database of their own. -/
def findMetadata (fileContent : Memory) : Option DataSection :=
  let found := findMetadataLoop (searchArea fileContent).length (searchArea fileContent)
  if found.length = (searchArea fileContent).length then none
  else some ⟨found, ((length_findMetadataLoop_le _ _).trans
    (length_searchArea_le fileContent)).trans_lt (by decide)⟩

/-- `value_for_key_as_*`: the value of a key, where it has the right type. -/
def valueForKey {α : Type} (metadata : DataSection) (key : String)
    (value : Datum → Option α) : Decode α := do
  let entry ← metadata.getValue 0 [text key]
  match value entry.datum with
  | some value => return value
  | none => Checked.stop .invalidMetadata

/-- `value_for_key_as_uint16`. -/
def valueForKeyAsUint16 (metadata : DataSection) (key : String) : Decode ℕ :=
  valueForKey metadata key fun | .uint16 value => some value | _ => none

/-- `value_for_key_as_uint32`. -/
def valueForKeyAsUint32 (metadata : DataSection) (key : String) : Decode ℕ :=
  valueForKey metadata key fun | .uint32 value => some value | _ => none

/-- `value_for_key_as_uint64`. -/
def valueForKeyAsUint64 (metadata : DataSection) (key : String) : Decode ℕ :=
  valueForKey metadata key fun | .uint64 value => some value | _ => none

/-- `value_for_key_as_string`. -/
def valueForKeyAsString (metadata : DataSection) (key : String) : Decode Bytes :=
  valueForKey metadata key fun | .utf8String value => some (cString value) | _ => none

/-- `populate_languages_metadata`. -/
def populateLanguagesMetadata (metadata : DataSection) : Decode (List Bytes) := do
  let entry ← metadata.getValue 0 [text "languages"]
  match entry.datum with
  | .array _ => do
    let list ← metadata.getEntryDataList maximumDataStructureDepth entry.offset
    takeTexts list.1.datum.dataSize list.2
  | _ => Checked.stop .invalidMetadata

/-- `populate_description_metadata`. -/
def populateDescriptionMetadata (metadata : DataSection) : Decode (List Bytes) := do
  let entry ← metadata.getValue 0 [text "description"]
  match entry.datum with
  | .map _ => do
    let list ← metadata.getEntryDataList maximumDataStructureDepth entry.offset
    takeTexts (2 * list.1.datum.dataSize) list.2
  | _ => Checked.stop .invalidMetadata

/-- A check of `read_metadata`. -/
def require (c : Prop) [Decidable c] (e : MmdbError) : Decode Unit :=
  if c then .ok () else Checked.stop e

/-- `read_metadata`. -/
def readMetadata (metadata : DataSection) : Decode Metadata := do
  let nodeCount ← valueForKeyAsUint32 metadata "node_count"
  require (nodeCount ≠ 0) .invalidMetadata
  let recordSize ← valueForKeyAsUint16 metadata "record_size"
  require (recordSize ≠ 0) .invalidMetadata
  require (recordSize = 24 ∨ recordSize = 28 ∨ recordSize = 32) .unknownDatabaseFormat
  let ipVersion ← valueForKeyAsUint16 metadata "ip_version"
  require (ipVersion ≠ 0) .invalidMetadata
  require (ipVersion = 4 ∨ ipVersion = 6) .invalidMetadata
  let databaseType ← valueForKeyAsString metadata "database_type"
  let languages ← populateLanguagesMetadata metadata
  let majorVersion ← valueForKeyAsUint16 metadata "binary_format_major_version"
  require (majorVersion ≠ 0) .invalidMetadata
  let minorVersion ← valueForKeyAsUint16 metadata "binary_format_minor_version"
  let buildEpoch ← valueForKeyAsUint64 metadata "build_epoch"
  require (buildEpoch ≠ 0) .invalidMetadata
  let description ← populateDescriptionMetadata metadata
  return ⟨nodeCount, recordSize, ipVersion, databaseType, languages, majorVersion, minorVersion,
    buildEpoch, description⟩

/-! ### Opening -/

/-- `can_multiply`. -/
def canMultiply (max m n : ℕ) : Bool := if m = 0 then false else n ≤ max / m

/-- `SSIZE_MAX`. -/
def ssizeMax : ℕ := 2 ^ 63 - 1

/-- The `depth` of a database for a version of IP. -/
def depthOf (ipVersion : ℕ) : ℕ := if ipVersion = 4 then 32 else 128

/-- The tree and the data section of a file, by its metadata: what `MMDB_open`
does after it has read them. -/
def layOut (fileContent : Memory) (metadata : Metadata) : Decode Mmdb :=
  let fullRecordByteSize := metadata.recordSize * 2 / 8
  let searchTreeSize := metadata.nodeCount * fullRecordByteSize
  let dataSectionStart := searchTreeSize + dataSectionSeparator
  if metadata.binaryFormatMajorVersion ≠ 2 then Checked.stop .unknownDatabaseFormat
  else if ¬ canMultiply ssizeMax metadata.nodeCount fullRecordByteSize then
    Checked.stop .invalidMetadata
  else if fileContent.length < dataSectionSeparator ∨
      fileContent.length - dataSectionSeparator < searchTreeSize then
    Checked.stop .invalidMetadata
  else if hsize : (fileContent.drop dataSectionStart).length < 2 ^ 32 then
    if (fileContent.drop dataSectionStart).length = 0 then Checked.stop .invalidMetadata
    else if (fileContent.drop dataSectionStart).length < 3 then Checked.stop .invalidData
    else
      let db : Mmdb := {
        fileContent := fileContent
        dataSectionStart := dataSectionStart
        dataSection := ⟨fileContent.drop dataSectionStart, hsize⟩
        nodeCount := metadata.nodeCount
        ipVersion := metadata.ipVersion
        fullRecordByteSize := fullRecordByteSize
        depth := depthOf metadata.ipVersion
        ipv4StartNode := ⟨0, 0⟩ }
      if metadata.ipVersion = 6 then do
        let ipv4StartNode ← db.findIpv4StartNode
        return { db with ipv4StartNode := ipv4StartNode }
      else return db
  else Checked.stop .invalidMetadata

/-- `MMDB_open`, of a file with this content. -/
def mmdbOpen (fileContent : Memory) : Decode Mmdb :=
  match findMetadata fileContent with
  | none => Checked.stop .invalidMetadata
  | some metadata => readMetadata metadata >>= layOut fileContent

/-! ### What is read -/

namespace DataSection

variable {db : DataSection} {offset : ℕ} {entry : EntryData}

/-- An entry says where it is decoded. -/
def DecodedAt (db : DataSection) (entry : EntryData) : Prop :=
  ∃ e, db.decodeOne entry.offset = .ok e ∧ e.datum = entry.datum

theorem offset_of_decodeOne (h : db.decodeOne offset = .ok entry) : entry.offset = offset := by
  rw [decodeOne] at h
  split_ifs at h
  · cases h
  · obtain ⟨ctrl, -, h⟩ := Checked.bind_eq_ok.mp h
    obtain ⟨type, -, h⟩ := Checked.bind_eq_ok.mp h
    obtain ⟨datum, -, h⟩ := Checked.bind_eq_ok.mp h
    cases h
    rfl

theorem decodedAt_of_decodeOne (h : db.decodeOne offset = .ok entry) : db.DecodedAt entry :=
  ⟨entry, by rw [offset_of_decodeOne h]; exact h, rfl⟩

theorem decodedAt_of_decodeOneFollow (h : db.decodeOneFollow offset = .ok entry) :
    db.DecodedAt entry := by
  obtain ⟨first, hfirst, h⟩ := Checked.bind_eq_ok.mp h
  split at h
  · obtain ⟨target, htarget, h⟩ := Checked.bind_eq_ok.mp h
    split at h
    · cases h
    · cases h
      exact decodedAt_of_decodeOne htarget
    · cases h
      exact decodedAt_of_decodeOne htarget
    · have hat := decodedAt_of_decodeOne htarget
      cases h
      exact hat
  · cases h
    exact decodedAt_of_decodeOne hfirst

theorem decodedAt_of_lookupPathInMap {pathElem : Bytes} {size : ℕ}
    (h : db.lookupPathInMap pathElem size offset = .ok entry) : db.DecodedAt entry := by
  induction size generalizing offset with
  | zero => cases h
  | succ size ih =>
    rw [lookupPathInMap] at h
    obtain ⟨key, -, h⟩ := Checked.bind_eq_ok.mp h
    split at h
    · split_ifs at h
      · exact decodedAt_of_decodeOneFollow h
      · obtain ⟨value, -, h⟩ := Checked.bind_eq_ok.mp h
        exact ih h
    · cases h

theorem decodedAt_of_lookupPathInArray {pathElem : Bytes} {size : ℕ} {e : EntryData}
    (h : db.lookupPathInArray pathElem size e = .ok entry) : db.DecodedAt entry := by
  simp only [lookupPathInArray] at h
  generalize (if (strtoll pathElem).value < 0 then (strtoll pathElem).value + (size : ℤ)
    else (strtoll pathElem).value) = i at h
  by_cases hrange : (strtoll pathElem).inRange = true
  · rw [if_neg (not_not.mpr hrange)] at h
    split_ifs at h
    · cases h
    · cases h
    · obtain ⟨last, -, h⟩ := Checked.bind_eq_ok.mp h
      exact decodedAt_of_decodeOneFollow h
  · rw [if_pos hrange] at h
    cases h

theorem decodedAt_of_lookupPaths {path : List Bytes} {e : EntryData} (he : db.DecodedAt e)
    (h : db.lookupPaths path e = .ok entry) : db.DecodedAt entry := by
  induction path generalizing e with
  | nil =>
    cases h
    exact he
  | cons pathElem path ih =>
    obtain ⟨next, hnext, h⟩ := Checked.bind_eq_ok.mp h
    refine ih ?_ h
    rw [lookupPath] at hnext
    split at hnext
    · exact decodedAt_of_lookupPathInArray hnext
    · exact decodedAt_of_lookupPathInMap hnext
    · cases hnext

/-- **The entry of a value that is found says where it is decoded.** -/
theorem decodedAt_of_getValue {path : List Bytes} (h : db.getValue offset path = .ok entry) :
    db.DecodedAt entry := by
  obtain ⟨first, hfirst, h⟩ := Checked.bind_eq_ok.mp h
  exact decodedAt_of_lookupPaths (decodedAt_of_decodeOneFollow hfirst) h

/-- The list of a map or an array has a member for each key and each value. -/
def Covers (list : EntryData × List EntryData) : Prop :=
  (∀ size, list.1.datum = .array size → size ≤ list.2.length) ∧
    ∀ size, list.1.datum = .map size → 2 * size ≤ list.2.length

theorem covers_of_datum {list : EntryData × List EntryData}
    (harray : ∀ size, list.1.datum ≠ .array size)
    (hmap : ∀ size, list.1.datum ≠ .map size) : Covers list :=
  ⟨fun size h => absurd h (harray size), fun size h => absurd h (hmap size)⟩

/-- What `get_entry_data_list` returns covers what it lists. -/
theorem covers_of_getEntryDataList {left : ℕ} {list : EntryData × List EntryData}
    (h : db.getEntryDataList left offset = .ok list) : Covers list := by
  induction left generalizing offset list with
  | zero => cases h
  | succ left ih =>
    rw [getEntryDataList] at h
    obtain ⟨entry, -, h⟩ := Checked.bind_eq_ok.mp h
    split at h
    · obtain ⟨target, -, h⟩ := Checked.bind_eq_ok.mp h
      split at h
      · cases h
      · obtain ⟨inner, hinner, h⟩ := Checked.bind_eq_ok.mp h
        have hcovers := ih hinner
        cases h
        exact hcovers
      · obtain ⟨inner, hinner, h⟩ := Checked.bind_eq_ok.mp h
        have hcovers := ih hinner
        cases h
        exact hcovers
      · rename_i _ harray hmap
        cases h
        exact covers_of_datum harray hmap
    · rename_i size harray
      split_ifs at h
      · cases h
      · obtain ⟨last, hlast, h⟩ := Checked.bind_eq_ok.mp h
        have hlength := Checked.le_of_times (fun acc => acc.2.length) (k := 1)
            (fun acc acc' hround => by
          obtain ⟨value, -, hvalue⟩ := Checked.bind_eq_ok.mp hround
          cases hvalue
          simp only [List.length_append, List.length_cons]
          omega) hlast
        cases h
        refine ⟨fun n hn => ?_, fun n hn => by simp [harray] at hn⟩
        obtain rfl : size = n := by simpa [harray] using hn
        simpa using hlength
    · rename_i size hmap
      split_ifs at h
      · cases h
      · obtain ⟨last, hlast, h⟩ := Checked.bind_eq_ok.mp h
        have hlength := Checked.le_of_times (fun acc => acc.2.length) (k := 2)
            (fun acc acc' hround => by
          obtain ⟨key, -, hround⟩ := Checked.bind_eq_ok.mp hround
          obtain ⟨value, -, hvalue⟩ := Checked.bind_eq_ok.mp hround
          cases hvalue
          simp only [List.length_append, List.length_cons]
          omega) hlast
        cases h
        refine ⟨fun n hn => by simp [hmap] at hn, fun n hn => ?_⟩
        obtain rfl : size = n := by simpa [hmap] using hn
        rw [Nat.mul_comm]
        simpa using hlength
    · rename_i _ harray hmap
      cases h
      exact covers_of_datum harray hmap

theorem safe_getEntryDataList (hsize : 3 ≤ db.content.length) (left offset : ℕ) :
    Safe (db.getEntryDataList left offset) Covers := by
  suffices hsafe : Safe (db.getEntryDataList left offset) fun _ => True from
    hsafe.and fun _ h => covers_of_getEntryDataList h
  induction left generalizing offset with
  | zero => exact Safe.stop _
  | succ left ih =>
    rw [getEntryDataList]
    refine (safe_decodeOne hsize offset).bind fun entry _ => ?_
    split
    · refine (safe_decodeOne hsize _).bind fun target _ => ?_
      split
      · exact Safe.stop _
      · exact (ih _).bind fun _ _ => Safe.ok trivial
      · exact (ih _).bind fun _ _ => Safe.ok trivial
      · exact Safe.ok trivial
    · refine Safe.check fun _ => ?_
      have hround (acc : ℕ × List EntryData) : Safe (db.getEntryDataList left acc.1 >>= fun value =>
          (.ok (value.1.offsetToNext, acc.2 ++ value.1 :: value.2) : Decode _)) fun _ => True :=
        (ih _).bind fun _ _ => Safe.ok trivial
      exact (Safe.times (fun acc _ => hround acc) _ trivial).bind fun _ _ => Safe.ok trivial
    · refine Safe.check fun _ => ?_
      have hround (acc : ℕ × List EntryData) : Safe (db.getEntryDataList left acc.1 >>= fun key =>
          db.getEntryDataList left key.1.offsetToNext >>= fun value =>
          (.ok (value.1.offsetToNext, acc.2 ++ key.1 :: key.2 ++ value.1 :: value.2) : Decode _))
              fun _ => True :=
        (ih _).bind fun _ _ => (ih _).bind fun _ _ => Safe.ok trivial
      exact (Safe.times (fun acc _ => hround acc) _ trivial).bind fun _ _ => Safe.ok trivial
    · exact Safe.ok trivial

end DataSection

theorem safe_takeTexts {count : ℕ} {members : List EntryData} (h : count ≤ members.length) :
    Safe (takeTexts count members) fun _ => True := by
  induction count generalizing members with
  | zero => exact Safe.ok trivial
  | succ count ih =>
    cases members with
    | nil => simp at h
    | cons member members =>
      rw [takeTexts]
      split
      · exact (ih (by simpa using h)).bind fun _ _ => Safe.ok trivial
      · exact Safe.stop _

variable {metadata : DataSection} {fileContent : Memory}

theorem safe_valueForKey {α : Type} (hsize : 3 ≤ metadata.content.length) (key : String)
    (value : Datum → Option α) :
    Safe (valueForKey metadata key value) fun v => ∃ datum, value datum = some v := by
  refine (DataSection.safe_getValue hsize 0 _).bind fun entry _ => ?_
  split
  · rename_i v hv
    exact Safe.ok ⟨entry.datum, hv⟩
  · exact Safe.stop _

/-- The list of the entry that was found covers it. -/
theorem covers_at {db : DataSection} {path : List Bytes} {entry : EntryData}
    {list : EntryData × List EntryData} {left : ℕ} (hentry : db.getValue 0 path = .ok entry)
    (hlist : db.getEntryDataList (left + 1) entry.offset = .ok list)
    (hpointer : ∀ pointer, entry.datum ≠ .pointer pointer) : list.1.datum = entry.datum ∧
    DataSection.Covers list := by
  refine ⟨?_, DataSection.covers_of_getEntryDataList hlist⟩
  obtain ⟨e, he, hdatum⟩ := DataSection.decodedAt_of_getValue hentry
  rw [DataSection.getEntryDataList, he, Checked.ok_bind] at hlist
  split at hlist
  · rename_i pointer hp
    exact absurd (hdatum.symm.trans hp) (hpointer pointer)
  · split_ifs at hlist
    · cases hlist
    · obtain ⟨last, -, hlist⟩ := Checked.bind_eq_ok.mp hlist
      cases hlist
      exact hdatum
  · split_ifs at hlist
    · cases hlist
    · obtain ⟨last, -, hlist⟩ := Checked.bind_eq_ok.mp hlist
      cases hlist
      exact hdatum
  · cases hlist
    exact hdatum

theorem safe_populateLanguagesMetadata (hsize : 3 ≤ metadata.content.length) :
    Safe (populateLanguagesMetadata metadata) fun _ => True := by
  have hvalue := DataSection.safe_getValue hsize 0 [text "languages"]
  refine (hvalue.and fun entry h => h).bind fun entry hentry => ?_
  split
  · rename_i size harray
    have hlist := DataSection.safe_getEntryDataList hsize maximumDataStructureDepth entry.offset
    refine (hlist.and fun list h => h).bind fun list hlist => ?_
    obtain ⟨hdatum, hcovers, -⟩ := covers_at hentry hlist (by simp [harray])
    rw [harray] at hdatum
    refine safe_takeTexts ?_
    rw [hdatum]
    exact hcovers size hdatum
  · exact Safe.stop _

theorem safe_populateDescriptionMetadata (hsize : 3 ≤ metadata.content.length) :
    Safe (populateDescriptionMetadata metadata) fun _ => True := by
  have hvalue := DataSection.safe_getValue hsize 0 [text "description"]
  refine (hvalue.and fun entry h => h).bind fun entry hentry => ?_
  split
  · rename_i size hmap
    have hlist := DataSection.safe_getEntryDataList hsize maximumDataStructureDepth entry.offset
    refine (hlist.and fun list h => h).bind fun list hlist => ?_
    obtain ⟨hdatum, -, hcovers⟩ := covers_at hentry hlist (by simp [hmap])
    rw [hmap] at hdatum
    refine safe_takeTexts ?_
    rw [hdatum]
    exact hcovers size hdatum
  · exact Safe.stop _

theorem safe_require (c : Prop) [Decidable c] (e : MmdbError) : Safe (require c e) fun _ => c := by
  rw [require]
  split_ifs with hc
  · exact Safe.ok hc
  · exact Safe.stop e

/-- What `read_metadata` has checked. -/
structure Metadata.Plausible (metadata : Metadata) : Prop where
  /-- The number of nodes is a `uint32_t`. -/
  nodeCount_lt : metadata.nodeCount < 2 ^ 32
  /-- There are nodes. -/
  nodeCount_ne : metadata.nodeCount ≠ 0
  /-- A record has one of the sizes there are. -/
  recordSize : metadata.recordSize = 24 ∨ metadata.recordSize = 28 ∨ metadata.recordSize = 32
  /-- The addresses are IPv4 or IPv6 addresses. -/
  ipVersion : metadata.ipVersion = 4 ∨ metadata.ipVersion = 6

/-- A number of 32 bits is one. -/
theorem uint32_lt {db : DataSection} {type : DataType} {size offset n : ℕ}
    (h : db.decodeData type size offset = .ok (.uint32 n)) : n < 2 ^ 32 := by
  rw [DataSection.decodeData.eq_def] at h
  split at h
  case h_2 =>
    split_ifs at h
    · cases h
    · obtain ⟨value, -, h⟩ := Checked.bind_eq_ok.mp h
      cases h
      exact Nat.mod_lt _ (by decide)
  case h_10 => cases h
  case h_8 =>
    obtain ⟨value, -, h⟩ := Checked.bind_eq_ok.mp h
    cases h
  case h_9 =>
    obtain ⟨value, -, h⟩ := Checked.bind_eq_ok.mp h
    cases h
  all_goals
    split_ifs at h
    · cases h
    · obtain ⟨value, -, h⟩ := Checked.bind_eq_ok.mp h
      cases h

theorem uint32_lt_of_decodeOne {db : DataSection} {offset n : ℕ} {entry : EntryData}
    (h : db.decodeOne offset = .ok entry) (hdatum : entry.datum = .uint32 n) : n < 2 ^ 32 := by
  rw [DataSection.decodeOne] at h
  split_ifs at h
  · cases h
  · obtain ⟨ctrl, -, h⟩ := Checked.bind_eq_ok.mp h
    obtain ⟨type, -, h⟩ := Checked.bind_eq_ok.mp h
    obtain ⟨⟨datum, next⟩, htyped, h⟩ := Checked.bind_eq_ok.mp h
    cases h
    obtain rfl : datum = .uint32 n := hdatum
    rw [DataSection.decodeTyped] at htyped
    split_ifs at htyped
    · rw [DataSection.decodePointer] at htyped
      split_ifs at htyped
      · cases htyped
      · obtain ⟨pointer, -, htyped⟩ := Checked.bind_eq_ok.mp htyped
        cases htyped
    · obtain ⟨size, -, hbody⟩ := Checked.bind_eq_ok.mp htyped
      rw [DataSection.decodeBody.eq_def] at hbody
      split at hbody
      · cases hbody
      · cases hbody
      · cases hbody
      · split_ifs at hbody
        · cases hbody
        · obtain ⟨datum, hdata, hbody⟩ := Checked.bind_eq_ok.mp hbody
          cases hbody
          exact uint32_lt hdata

theorem safe_valueForKeyAsUint32 (hsize : 3 ≤ metadata.content.length) (key : String) :
    Safe (valueForKeyAsUint32 metadata key) fun n => n < 2 ^ 32 := by
  refine (safe_valueForKey hsize key _).and fun n hn => ?_
  obtain ⟨entry, hentry, hn⟩ := Checked.bind_eq_ok.mp hn
  obtain ⟨e, he, hdatum⟩ := DataSection.decodedAt_of_getValue hentry
  split at hn
  · rename_i value hvalue
    cases hn
    dsimp only at hvalue
    split at hvalue
    · rename_i m hm
      cases hvalue
      exact uint32_lt_of_decodeOne he (hdatum.trans hm)
    · cases hvalue
  · cases hn

/-- **The metadata are read in their section alone**, and what is read has been checked. -/
theorem safe_readMetadata (hsize : 3 ≤ metadata.content.length) :
    Safe (readMetadata metadata) Metadata.Plausible := by
  refine (safe_valueForKeyAsUint32 hsize _).bind fun nodeCount hlt => ?_
  refine (safe_require _ _).bind fun _ hne => ?_
  refine (safe_valueForKey hsize _ _).bind fun recordSize _ => ?_
  refine (safe_require _ _).bind fun _ _ => ?_
  refine (safe_require _ _).bind fun _ hrecord => ?_
  refine (safe_valueForKey hsize _ _).bind fun ipVersion _ => ?_
  refine (safe_require _ _).bind fun _ _ => ?_
  refine (safe_require _ _).bind fun _ hversion => ?_
  refine (safe_valueForKey hsize _ _).bind fun databaseType _ => ?_
  refine (safe_populateLanguagesMetadata hsize).bind fun languages _ => ?_
  refine (safe_valueForKey hsize _ _).bind fun majorVersion _ => ?_
  refine (safe_require _ _).bind fun _ _ => ?_
  refine (safe_valueForKey hsize _ _).bind fun minorVersion _ => ?_
  refine (safe_valueForKey hsize _ _).bind fun buildEpoch _ => ?_
  refine (safe_require _ _).bind fun _ _ => ?_
  refine (safe_populateDescriptionMetadata hsize).bind fun description _ => ?_
  exact Safe.ok ⟨hlt, hne, hrecord, hversion⟩

/-! ### What is opened -/

theorem safe_ipv4StartLoop {db : Mmdb} {info : RecordInfo}
    (hinfo : info.Reads db.fullRecordByteSize)
    (hstart : db.dataSectionStart ≤ db.fileContent.length) (left : ℕ) (start : Ipv4StartNode) :
    Safe (db.ipv4StartLoop info left start) fun _ => True := by
  induction left generalizing start with
  | zero => exact Safe.ok trivial
  | succ left ih =>
    rw [Mmdb.ipv4StartLoop]
    split_ifs
    · exact (Mmdb.safe_readRecord hstart hinfo _ _).bind fun _ _ => ih _
    · exact Safe.ok trivial

/-- **A file is laid out so that lookups can rely on it.** -/
theorem safe_layOut {metadata : Metadata} (h : metadata.Plausible) :
    Safe (layOut fileContent metadata) fun db => db.Opened ∧ db.fileContent = fileContent := by
  have hrecord : metadata.recordSize * 2 / 8 ∈ [6, 7, 8] := by
    rcases h.recordSize with heq | heq | heq <;> rw [heq] <;> decide
  simp only [layOut]
  refine Safe.check fun _ => Safe.check fun _ => Safe.check fun hfile => ?_
  split_ifs with hsize hzero hthree hsix
  · exact Safe.stop _
  · exact Safe.stop _
  · -- the node for IPv4 is looked for
    have hnone {db : Mmdb} (hrec : db.fullRecordByteSize = metadata.recordSize * 2 / 8)
        (hstart : db.dataSectionStart ≤ db.fileContent.length) : Safe db.findIpv4StartNode
            fun _ => True := by
      rw [Mmdb.findIpv4StartNode]
      split_ifs
      · exact Safe.ok trivial
      · split
        · exact Safe.stop _
        · rename_i info hinfo
          exact safe_ipv4StartLoop (reads_of_recordInfoForDatabase hinfo) hstart 96 _
    refine Safe.bind ((hnone rfl (by simp only [dataSectionSeparator] at hfile ⊢; omega)).and
      fun node hnode => hnode) fun node hnode => ?_
    refine Safe.ok ⟨⟨hrecord, rfl, rfl, Nat.not_lt.mp hthree, h.nodeCount_lt, Or.inr ⟨hsix, ?_⟩,
      fun _ => hnode⟩, rfl⟩
    rw [hsix]
    rfl
  · refine Safe.ok ⟨⟨hrecord, rfl, rfl, Nat.not_lt.mp hthree, h.nodeCount_lt, ?_,
      fun hsix' => absurd hsix' hsix⟩, rfl⟩
    have hfour : metadata.ipVersion = 4 := h.ipVersion.resolve_right hsix
    exact Or.inl ⟨hfour, if_pos hfour⟩
  · exact Safe.stop _

/-- The metadata of a file are three bytes at least, where there is a marker. -/
def MetadataLongEnough (fileContent : Memory) : Prop :=
  ∀ metadata, findMetadata fileContent = some metadata → 3 ≤ metadata.content.length

/-- **A file is opened without a look outside of it**, whatever it contains, if three bytes follow
its last marker; and what is opened is what the lookups rely on. -/
theorem safe_mmdbOpen (h : MetadataLongEnough fileContent) :
    Safe (mmdbOpen fileContent) fun db => db.Opened ∧ db.fileContent = fileContent := by
  rw [mmdbOpen]
  split
  · exact Safe.stop _
  · rename_i metadata hmetadata
    exact (safe_readMetadata (h metadata hmetadata)).bind fun _ hplausible => safe_layOut hplausible

/-- Where the marker ends the file, the first byte after the file is read. -/
example : readMetadata ⟨[], by decide⟩ = .error .fault := rfl

end IpRouter.MaxMindDb
