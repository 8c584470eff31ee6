import IpRouter.DnsGate.Diagnostics
import IpRouter.MaxMindDb.Format
import IpRouter.MaxMindDb.Open

/-!
# The country of an address

`lookup_country` of `geoip_router.cpp` with the vendored libmaxminddb in the place of
the parameter it has in `Diagnostics`: the address is looked up in the search tree,
and the code of the country in the value the tree leads to. Whether a text is an
address is for `getaddrinfo` to say, which stays a parameter.

`lookupCountry_eq` is what a database is for: the country of an address is the one in
the value of the network the address is in. `safe_country` says that a look-up stays
in the file, from opening it to reading the code, whatever the file contains.
-/

namespace IpRouter.DnsGate

open Theory MaxMindDb

/-! ### The library -/

/-- The path of the code of the country. -/
def countryPath : List Bytes := [text "country", text "iso_code"]

/-- The text of an entry, if it is one. -/
def textOf : Datum → Option Bytes
  | .utf8String s => some s
  | _ => none

/-- What `MMDB_get_value` says about the code in the value at an offset; nothing where memory is
read that is not the library's. -/
def countryAnswer (db : Mmdb) (result : LookupResult) : Option MmdbAnswer :=
  match db.dataSection.getValue result.offset countryPath with
  | .ok entry =>
    some ⟨0, 0, result.foundEntry, 0, true, (textOf entry.datum).isSome,
      (textOf entry.datum).getD []⟩
  | .error (.error e) => some ⟨0, 0, result.foundEntry, e.code, false, false, []⟩
  | .error .fault => none

/-- What the library says about an address: `MMDB_lookup_string`, and
`MMDB_get_value` where an entry is found. -/
def mmdbAnswer (db : Mmdb) (getaddrinfo : Bytes → Except ℤ Sockaddr) (ip : Bytes) :
    Option MmdbAnswer :=
  match getaddrinfo ip with
  | .error gaiError => some ⟨gaiError, 0, false, 0, false, false, []⟩
  | .ok sockaddr =>
    match db.lookupSockaddr sockaddr with
    | .ok result =>
      if result.foundEntry then countryAnswer db result else some ⟨0, 0, false, 0, false, false, []⟩
    | .error (.error e) => some ⟨0, e.code, false, 0, false, false, []⟩
    | .error .fault => none

variable {db : Mmdb} {getaddrinfo : Bytes → Except ℤ Sockaddr}

theorem exists_mmdbAnswer (h : db.Opened) (getaddrinfo : Bytes → Except ℤ Sockaddr) (ip : Bytes) :
    (mmdbAnswer db getaddrinfo ip).isSome := by
  have hlookup := fun sockaddr => (Mmdb.safe_lookupSockaddr h sockaddr).1
  have hvalue := fun offset => (DataSection.safe_getValue h.three_le offset countryPath).1
  rw [mmdbAnswer]
  split
  · rfl
  · split
    · split_ifs
      · rw [countryAnswer]
        split
        · rfl
        · rfl
        · exact absurd ‹_› (hvalue _)
      · rfl
    · rfl
    · exact absurd ‹_› (hlookup _)

/-- The answers of the library for a database that was opened. -/
def answers (h : db.Opened) (getaddrinfo : Bytes → Except ℤ Sockaddr) (ip : Bytes) : MmdbAnswer :=
  (mmdbAnswer db getaddrinfo ip).get (exists_mmdbAnswer h getaddrinfo ip)

theorem answers_eq (h : db.Opened) {ip : Bytes} {answer : MmdbAnswer}
    (hanswer : mmdbAnswer db getaddrinfo ip = some answer) :
    answers h getaddrinfo ip = answer := by
  simp [answers, hanswer]

/-- **A look-up stays in the file**, from opening it to reading the code of a country: whatever the
file contains, if three bytes follow its last marker, no byte outside of it is read. -/
theorem safe_country {fileContent : Memory} (h : MetadataLongEnough fileContent) :
    Safe (mmdbOpen fileContent) fun db =>
      ∀ sockaddr, Safe (db.lookupSockaddr sockaddr) fun result =>
      ∀ path, Safe (db.dataSection.getValue result.offset path) fun entry =>
        entry.offsetToNext ≤ db.dataSection.content.length := by
  refine (safe_mmdbOpen h).mono fun db hdb sockaddr => ?_
  exact (Mmdb.safe_lookupSockaddr hdb.1 sockaddr).mono fun result _ path =>
    DataSection.safe_getValue hdb.1.three_le result.offset path

/-! ### What the database says -/

/-- The country in a value. -/
def countryOf (v : Value) : Option Bytes :=
  match Value.follow countryPath v with
  | .ok (.utf8String code) => some (uppercase code)
  | _ => none

/-- **A database**: a tree of networks, with a value for each. -/
structure Database (db : Mmdb) where
  /-- The tree. -/
  networks : Trie ℕ
  /-- The value at an offset. -/
  value : ℕ → Value
  /-- How records are read. -/
  info : RecordInfo
  /-- It is how records of this database are read. -/
  info_eq : recordInfoForDatabase db.fullRecordByteSize = some info
  /-- The tree stands at the beginning of the file. -/
  represents : db.Represents info 0 networks
  /-- It is not deeper than an address is long. -/
  height_le : networks.height ≤ db.depth
  /-- The value of every network stands in the data section. -/
  stands : ∀ net ∈ networks.networks, ∃ height next, height ≤ maximumDataStructureDepth ∧
    db.dataSection.FieldAt (db.dataSection.StandsAt height) net.2 (value net.2) next

/-- The country of the network an address is in. -/
def Database.country (d : Database db) (address : Bytes) : Option Bytes :=
  (d.networks.lookup (Mmdb.addressBits address)).2.bind fun offset => countryOf (d.value offset)

theorem code_ne_zero (e : MmdbError) : e.code ≠ 0 := by cases e <;> decide

/-- What `lookup_country` makes of the entry of a value. -/
theorem lookupCountry_of_stands (h : db.Opened) {ip : Bytes} {sockaddr : Sockaddr}
    {netmask offset height next : ℕ} {v : Value} (hip : getaddrinfo ip = .ok sockaddr)
    (hfound : db.lookupSockaddr sockaddr = .ok ⟨true, netmask, offset⟩)
    (hstands : db.dataSection.FieldAt (db.dataSection.StandsAt height) offset v next)
    (hheight : height ≤ maximumDataStructureDepth) :
    lookupCountry (answers h getaddrinfo) ip = countryOf v := by
  have hvalue := DataSection.map_datum_getValue countryPath hstands hheight
  have hanswer : mmdbAnswer db getaddrinfo ip = countryAnswer db ⟨true, netmask, offset⟩ := by
    simp only [mmdbAnswer, hip, hfound, if_true]
  rw [countryOf]
  cases hread : db.dataSection.getValue offset countryPath with
  | ok entry =>
    have hent : countryAnswer db ⟨true, netmask, offset⟩ =
        some ⟨0, 0, true, 0, true, (textOf entry.datum).isSome, (textOf entry.datum).getD []⟩ := by
      simp only [countryAnswer, hread]
    rw [hread] at hvalue
    cases hfollow : Value.follow countryPath v with
    | error e =>
      rw [hfollow] at hvalue
      cases hvalue
    | ok w =>
      rw [hfollow] at hvalue
      have hdatum : entry.datum = w.datum := Except.ok.inj hvalue
      simp only [lookupCountry, answers_eq h (hanswer.trans hent), hdatum]
      cases w <;> simp [Value.datum, textOf]
  | error halt =>
    cases halt with
    | fault => exact absurd hread (DataSection.safe_getValue h.three_le offset countryPath).1
    | error e =>
      have hent : countryAnswer db ⟨true, netmask, offset⟩ =
          some ⟨0, 0, true, e.code, false, false, []⟩ := by
        simp only [countryAnswer, hread]
      rw [hread] at hvalue
      cases hfollow : Value.follow countryPath v with
      | error e' => simp [lookupCountry, answers_eq h (hanswer.trans hent), code_ne_zero]
      | ok w =>
        rw [hfollow] at hvalue
        cases hvalue

/-- **The country of an address is the one of the network it is in**: the code in the
value of that network, in capital letters, and none where the address is in no network or
the value has no such text. -/
theorem lookupCountry_eq (h : db.Opened) (d : Database db) {ip address : Bytes}
    {sockaddr : Sockaddr} (hip : getaddrinfo ip = .ok sockaddr)
    (haddress : db.treeAddress sockaddr = some address) :
    lookupCountry (answers h getaddrinfo) ip = d.country address := by
  have hlookup := Mmdb.lookupSockaddr_eq h d.info_eq d.represents d.height_le haddress
  have hbits : d.networks.height ≤ (Mmdb.addressBits address).length := by
    have hlength := Mmdb.length_treeAddress h haddress
    rw [Mmdb.length_addressBits, hlength]
    exact d.height_le
  rw [Database.country]
  cases hfound : d.networks.lookup (Mmdb.addressBits address) with
  | mk netmask found =>
    rw [hfound] at hlookup
    cases found with
    | none =>
      have hanswer : mmdbAnswer db getaddrinfo ip = some ⟨0, 0, false, 0, false, false, []⟩ := by
        simp [mmdbAnswer, hip, hlookup, Mmdb.reportOf]
      simp [lookupCountry, answers_eq h hanswer]
    | some offset =>
      obtain ⟨-, hnet⟩ := (Trie.lookup_eq_some_iff hbits).mp hfound
      obtain ⟨height, next, hheight, hstands⟩ := d.stands _ hnet
      exact lookupCountry_of_stands h hip hlookup hstands hheight

/-- A database for IPv4 that knows the country of half of the addresses. -/
def countryDatabase : Mmdb where
  fileContent := [0, 0, 1, 0, 0, 17] ++ List.replicate 16 0 ++ DataSection.countrySection.content
  dataSectionStart := 22
  dataSection := DataSection.countrySection
  nodeCount := 1
  ipVersion := 4
  fullRecordByteSize := 6
  depth := 32
  ipv4StartNode := ⟨0, 0⟩

theorem countryDatabase_opened : countryDatabase.Opened where
  record_mem := by decide
  start_eq := rfl
  content_eq := rfl
  three_le := by decide
  nodeCount_lt := by decide
  version := Or.inl ⟨rfl, rfl⟩
  ipv4_start h := by cases h

/-- What is in it. -/
def countryNetworks : Database countryDatabase where
  networks := .node .empty (.leaf 0)
  value _ := DataSection.countryValue
  info := ⟨6, Memory.getUint24, Memory.getUint24, 3⟩
  info_eq := rfl
  represents := .node (by decide) rfl rfl .empty
    (@Mmdb.Represents.leaf countryDatabase _ 0 (by decide) (by decide))
  height_le := by decide
  stands net hnet := by
    obtain rfl : net = ([true], 0) := by simpa [Trie.networks] using hnet
    exact ⟨3, 11, by decide, Or.inl DataSection.countryValue_standsAt⟩

/-- A text of less than 29 bytes, as it stands in a file. -/
def shortText (value : String) : Bytes := UInt8.ofNat (0x40 + (text value).length) :: text value

/-- The metadata of the database. -/
def countryMetadata : Bytes :=
  0xe9 :: shortText "node_count" ++ [0xc1, 1] ++ shortText "record_size" ++ [0xa1, 24] ++
    shortText "ip_version" ++ [0xa1, 4] ++ shortText "database_type" ++ shortText "Country" ++
    shortText "languages" ++ [0x01, 0x04] ++ shortText "en" ++
    shortText "binary_format_major_version" ++ [0xa1, 2] ++
      shortText "binary_format_minor_version" ++ [0xa0] ++
    shortText "build_epoch" ++ [0x01, 0x02, 1] ++ shortText "description" ++ [0xe1] ++
      shortText "en" ++ shortText "Half"

/-- Its file. -/
def countryFile : Memory := countryDatabase.fileContent ++ metadataMarker ++ countryMetadata

/-- The file is opened, an address is looked up, and the code of its country is read, all in the
file. -/
theorem safe_country_file : ∃ db result entry, mmdbOpen countryFile = .ok db ∧
    db.lookupSockaddr (.inet [203, 0, 113, 7] rfl) = .ok result ∧
    db.dataSection.getValue result.offset countryPath = .ok entry ∧
    entry.datum = .utf8String (text "cn") ∧
    entry.offsetToNext ≤ db.dataSection.content.length := by
  have hread : (do
      let db ← mmdbOpen countryFile
      let result ← db.lookupSockaddr (.inet [203, 0, 113, 7] rfl)
      let entry ← db.dataSection.getValue result.offset countryPath
      return entry.datum) = .ok (.utf8String (text "cn")) := by decide +kernel
  have hlong : MetadataLongEnough countryFile := by
    intro metadata hmetadata
    have hall : (findMetadata countryFile).all fun metadata => 3 ≤ metadata.content.length := by
      decide +kernel
    rw [hmetadata] at hall
    exact of_decide_eq_true hall
  obtain ⟨db, hopen, hread⟩ := Checked.bind_eq_ok.mp hread
  obtain ⟨result, hlookup, hread⟩ := Checked.bind_eq_ok.mp hread
  obtain ⟨entry, hvalue, hread⟩ := Checked.bind_eq_ok.mp hread
  have hinside := (((safe_country hlong).2 db hopen _).2 result hlookup countryPath).2 entry hvalue
  exact ⟨db, result, entry, hopen, hlookup, hvalue, Except.ok.inj hread, hinside⟩

theorem lookupCountry_eq_countryDatabase :
    lookupCountry (answers countryDatabase_opened fun _ => .ok (.inet [203, 0, 113, 7] rfl))
      (text "203.0.113.7") = some (text "CN") :=
  (lookupCountry_eq countryDatabase_opened countryNetworks rfl rfl).trans (by decide)

end IpRouter.DnsGate
