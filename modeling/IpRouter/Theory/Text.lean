import Mathlib.Data.Int.Order.Basic
import Mathlib.Data.List.DropRight
import Mathlib.Data.List.Lex
import Mathlib.Data.List.TakeWhile
import Mathlib.Tactic.SplitIfs

/-!
# Text as bytes

Strings are lists of bytes, as C and C++ see them: a C string ends at the first
NUL (`cString`), `std::getline` cuts a file at its newlines (`getlines`), and
`strtoll` reads a decimal number with its sign, its leading white space and its
64-bit range. `decimal` is the text a stream prints for an integer.

The lemmas say that what is printed is read back: `getlines_append_newline` for
lines and `strtoll_decimal` for numbers. Bytes are ordered as unsigned numbers,
and strings by their first difference, which is the order of `strcmp`.
-/

namespace IpRouter.Theory

/-- A string of bytes. -/
abbrev Bytes := List UInt8

instance byteLinearOrder : LinearOrder UInt8 where
  le_refl := UInt8.le_refl
  le_trans _ _ _ := UInt8.le_trans
  le_antisymm _ _ := UInt8.le_antisymm
  le_total := UInt8.le_total
  lt_iff_le_not_ge a b := by
    rw [UInt8.lt_iff_toNat_lt, UInt8.le_iff_toNat_le, UInt8.le_iff_toNat_le]; omega
  toDecidableLE := inferInstance
  toDecidableEq := inferInstance
  toDecidableLT := inferInstance

/-- The bytes of an ASCII text. -/
def text (s : String) : Bytes := s.toList.map fun c => UInt8.ofNat c.toNat

/-- The C string at the start of a buffer: what stands before the first NUL. -/
def cString (s : Bytes) : Bytes := s.takeWhile (· ≠ 0)

/-- Without a NUL the C string is the whole string. -/
theorem cString_eq_self {s : Bytes} (h : 0 ∉ s) : cString s = s := by
  rw [cString, List.takeWhile_eq_self_iff]
  intro b hb
  simpa using fun h₀ : b = 0 => h (h₀ ▸ hb)

theorem zero_notMem_cString (s : Bytes) : 0 ∉ cString s := fun h => by
  simpa using List.mem_takeWhile_imp h

/-! ### Lines -/

/-- The parts of a list between separators hold none. -/
theorem not_mem_of_mem_splitOn {a : UInt8} {s l : Bytes} (h : l ∈ s.splitOn a) : a ∉ l := by
  induction s generalizing l with
  | nil =>
    obtain rfl : l = [] := by simpa using h
    exact List.not_mem_nil
  | cons b s ih =>
    rw [List.splitOn_cons_eq_if_modifyHead] at h
    split_ifs at h with hb
    · rcases List.mem_cons.mp h with rfl | h
      · exact List.not_mem_nil
      · exact ih h
    · obtain ⟨p, ps, hps⟩ := List.exists_cons_of_ne_nil (List.splitOn_ne_nil a s)
      rw [hps, List.modifyHead_cons] at h
      rcases List.mem_cons.mp h with rfl | h
      · have hp : a ∉ p := ih (hps ▸ List.mem_cons_self)
        have hne : a ≠ b := fun hab => hb (by simp [hab])
        simp [hne, hp]
      · exact ih (hps ▸ List.mem_cons_of_mem _ h)

/-- The parts of a list are made of its items. -/
theorem mem_of_mem_splitOn {a b : UInt8} {s l : Bytes} (h : l ∈ s.splitOn a)
    (hb : b ∈ l) : b ∈ s := by
  induction s generalizing l with
  | nil =>
    obtain rfl : l = [] := by simpa using h
    exact hb
  | cons c s ih =>
    rw [List.splitOn_cons_eq_if_modifyHead] at h
    split_ifs at h with hc
    · rcases List.mem_cons.mp h with rfl | h
      · cases hb
      · exact List.mem_cons_of_mem _ (ih h hb)
    · obtain ⟨p, ps, hps⟩ := List.exists_cons_of_ne_nil (List.splitOn_ne_nil a s)
      rw [hps, List.modifyHead_cons] at h
      rcases List.mem_cons.mp h with rfl | h
      · rcases List.mem_cons.mp hb with rfl | hb
        · exact List.mem_cons_self
        · exact List.mem_cons_of_mem _ (ih (hps ▸ List.mem_cons_self) hb)
      · exact List.mem_cons_of_mem _ (ih (hps ▸ List.mem_cons_of_mem _ h) hb)

/-- The lines of a file, as repeated `std::getline` reads them: a last line without a newline counts
unless it is empty. -/
def getlines (content : Bytes) : List Bytes :=
  let parts := content.splitOn 10
  if parts.getLast? = some [] then parts.dropLast else parts

@[simp] theorem getlines_nil : getlines [] = [] := by simp [getlines]

/-- A line that was written with its newline is the first line read. -/
theorem getlines_append_newline {l : Bytes} (hl : 10 ∉ l) (rest : Bytes) :
    getlines (l ++ 10 :: rest) = l :: getlines rest := by
  have hne : rest.splitOn 10 ≠ [] := List.splitOn_ne_nil _ _
  obtain ⟨p, ps, hps⟩ := List.exists_cons_of_ne_nil hne
  simp only [getlines, List.splitOn_append_cons_self_of_not_mem hl, hps, List.getLast?_cons_cons,
    List.dropLast_cons_cons]
  split_ifs <;> rfl

/-- Lines written with their newlines are read back. -/
theorem getlines_flatMap {ls : List Bytes} (hls : ∀ l ∈ ls, 10 ∉ l) (rest : Bytes) :
    getlines ((ls.flatMap fun l => l ++ [10]) ++ rest) = ls ++ getlines rest := by
  induction ls with
  | nil => rfl
  | cons l ls ih =>
    have htail := ih fun l' h' => hls l' (List.mem_cons_of_mem _ h')
    rw [List.flatMap_cons, List.append_assoc, List.append_assoc, List.singleton_append,
      getlines_append_newline (hls l List.mem_cons_self), htail, List.cons_append]

/-- What stands before a newline does not change the lines after it. -/
theorem getlines_append_cons (a rest : Bytes) :
    getlines (a ++ 10 :: rest) = a.splitOn 10 ++ getlines rest := by
  have hne : rest.splitOn 10 ≠ [] := List.splitOn_ne_nil _ _
  simp only [getlines, List.splitOn_append_cons_self, List.getLast?_append_of_ne_nil _ hne]
  split_ifs
  · rw [List.dropLast_append_of_ne_nil hne]
  · rfl

/-- No line holds a newline. -/
theorem newline_notMem_of_mem_getlines {content l : Bytes} (h : l ∈ getlines content) : 10 ∉ l := by
  have hsub : getlines content ⊆ content.splitOn 10 := by
    unfold getlines
    simp only
    split_ifs
    · exact List.dropLast_subset _
    · exact List.Subset.refl _
  exact not_mem_of_mem_splitOn (hsub h)

/-! ### Numbers -/

/-- The largest and the smallest 64-bit integer. -/
def int64Max : ℤ := 9223372036854775807
/-- The smallest 64-bit integer. -/
def int64Min : ℤ := -9223372036854775808

/-- The decimal digits of a number. -/
def digits (n : ℕ) : Bytes := (Nat.toDigits 10 n).map fun c => UInt8.ofNat c.toNat

/-- The text a stream prints for an integer. -/
def decimal : ℤ → Bytes
  | .ofNat n => digits n
  | .negSucc n => 45 :: digits (n + 1)

/-- An ASCII digit. -/
def isDigit (b : UInt8) : Bool := 48 ≤ b && b ≤ 57

/-- White space of the C locale. -/
def isSpace (b : UInt8) : Bool := b = 32 || (9 ≤ b && b ≤ 13)

/-- The number a run of digits denotes. -/
def ofDigits (ds : Bytes) : ℕ := ds.foldl (fun n b => 10 * n + (b.toNat - 48)) 0

/-- What `strtoll` reports. -/
structure Strtoll where
  /-- The value, clamped to 64 bits. -/
  value : ℤ
  /-- What the end pointer points to. -/
  rest : Bytes
  /-- Whether the end pointer moved. -/
  parsed : Bool
  /-- Whether the value fits in 64 bits (`errno` is not set). -/
  inRange : Bool

/-- `strtoll(s, &end, 10)`. -/
def strtoll (s : Bytes) : Strtoll :=
  let body := s.dropWhile isSpace
  let negative := body.head? = some 45
  let unsigned := if body.head? = some 45 ∨ body.head? = some 43 then body.tail else body
  let run := unsigned.takeWhile isDigit
  if run = [] then ⟨0, s, false, true⟩
  else
    let value : ℤ := if negative then -(ofDigits run : ℤ) else ofDigits run
    ⟨max int64Min (min int64Max value), unsigned.dropWhile isDigit, true,
      decide (int64Min ≤ value ∧ value ≤ int64Max)⟩

theorem toNat_digitByte {c : Char} (hc : c.isDigit = true) :
    (UInt8.ofNat c.toNat).toNat = c.toNat ∧ 48 ≤ c.toNat ∧ c.toNat ≤ 57 := by
  have h := Char.isDigit_iff_toNat.mp hc
  have hd : 48 ≤ c.toNat ∧ c.toNat ≤ 57 := h
  rw [UInt8.toNat_ofNat']
  omega

theorem isDigit_of_mem_digits {n : ℕ} {b : UInt8} (h : b ∈ digits n) : isDigit b = true := by
  obtain ⟨c, hc, rfl⟩ := List.mem_map.mp h
  obtain ⟨hb, h₁, h₂⟩ := toNat_digitByte (Nat.isDigit_of_mem_toDigits (by decide) (by decide) hc)
  simp only [isDigit, Bool.and_eq_true, decide_eq_true_eq, UInt8.le_iff_toNat_le, hb]
  exact ⟨h₁, h₂⟩

theorem digits_ne_nil (n : ℕ) : digits n ≠ [] := by simp [digits, Nat.toDigits_ne_nil]

/-- The digits of a number denote it. -/
theorem ofDigits_digits (n : ℕ) : ofDigits (digits n) = n := by
  have hfold : ∀ (cs : List Char) (k : ℕ), (∀ c ∈ cs, c.isDigit = true) →
      (cs.map fun c => UInt8.ofNat c.toNat).foldl (fun n b => 10 * n + (b.toNat - 48)) k =
          Nat.ofDigitChars 10 cs k := by
    intro cs
    induction cs with
    | nil => intro k _; simp
    | cons c cs ih =>
      intro k hcs
      have hc := (toNat_digitByte (hcs c List.mem_cons_self)).1
      simp only [List.map_cons, List.foldl_cons, hc, Nat.ofDigitChars_cons]
      exact ih _ fun d hd => hcs d (List.mem_cons_of_mem _ hd)
  rw [ofDigits, digits, hfold _ 0 fun c hc =>
    Nat.isDigit_of_mem_toDigits (by decide) (by decide) hc]
  exact Nat.ofDigitChars_ten_toDigits

/-- `s` is the text of the integer `v` as `strtoll` reads it to the end: white
space, a sign, and digits. -/
def Denotes (s : Bytes) (v : ℤ) : Prop :=
  ∃ spaces run : Bytes, (∀ b ∈ spaces, isSpace b = true) ∧ run ≠ [] ∧
    (∀ b ∈ run, isDigit b = true) ∧
    ((s = spaces ++ run ∧ v = ofDigits run) ∨ (s = spaces ++ 43 :: run ∧ v = ofDigits run) ∨
      (s = spaces ++ 45 :: run ∧ v = -(ofDigits run : ℤ)))

theorem isDigit_iff {b : UInt8} : isDigit b = true ↔ 48 ≤ b.toNat ∧ b.toNat ≤ 57 := by
  simp only [isDigit, Bool.and_eq_true, decide_eq_true_eq, UInt8.le_iff_toNat_le]
  rfl

theorem isSpace_iff {b : UInt8} : isSpace b = true ↔ b.toNat = 32 ∨
    (9 ≤ b.toNat ∧ b.toNat ≤ 13) := by
  simp only [isSpace, Bool.or_eq_true, Bool.and_eq_true, decide_eq_true_eq, UInt8.le_iff_toNat_le,
    ← UInt8.toNat_inj]
  rfl

/-- A digit is neither white space nor a sign. -/
theorem of_isDigit {b : UInt8} (h : isDigit b = true) : isSpace b = false ∧ b ≠ 45 ∧ b ≠ 43 := by
  rw [isDigit_iff] at h
  refine ⟨?_, ?_, ?_⟩
  · rw [Bool.eq_false_iff, ne_eq, isSpace_iff]
    omega
  · rintro rfl
    simp at h
  · rintro rfl
    simp at h

/-- White space in front is skipped. -/
theorem dropWhile_spaces {spaces s : Bytes} (h : ∀ b ∈ spaces, isSpace b = true)
    (hs : s.head?.all (!isSpace ·) = true) :
    (spaces ++ s).dropWhile isSpace = s := by
  rw [List.dropWhile_append_of_pos h]
  cases s with
  | nil => rfl
  | cons b s => rw [List.dropWhile_cons_of_neg (by simpa using hs)]

/-- **The text of an integer is read in full**, and clamped to 64 bits. -/
theorem strtoll_of_denotes {s : Bytes} {v : ℤ} (h : Denotes s v) :
    strtoll s =
      ⟨max int64Min (min int64Max v), [], true, decide (int64Min ≤ v ∧ v ≤ int64Max)⟩ := by
  obtain ⟨spaces, run, hspaces, hrun, hdigits, hs⟩ := h
  have htake : run.takeWhile isDigit = run := List.takeWhile_eq_self_iff.mpr hdigits
  have hdrop : run.dropWhile isDigit = [] := List.dropWhile_eq_nil_iff.mpr hdigits
  rcases hs with ⟨rfl, rfl⟩ | ⟨rfl, rfl⟩ | ⟨rfl, rfl⟩
  · obtain ⟨d, ds, rfl⟩ := List.exists_cons_of_ne_nil hrun
    obtain ⟨hspace, hminus, hplus⟩ := of_isDigit (hdigits d List.mem_cons_self)
    have hbody : (spaces ++ d :: ds).dropWhile isSpace = d :: ds :=
      dropWhile_spaces hspaces (by simpa using hspace)
    simp only [strtoll, hbody, List.head?_cons, Option.some.injEq, hminus, hplus, or_self, if_false,
      htake, hdrop, hrun]
  · have hbody : (spaces ++ 43 :: run).dropWhile isSpace = 43 :: run := dropWhile_spaces hspaces rfl
    have hminus : (43 : UInt8) ≠ 45 := by decide
    simp only [strtoll, hbody, List.head?_cons, Option.some.injEq, hminus, or_true, if_true,
      if_false, List.tail_cons, htake, hdrop, hrun]
  · have hbody : (spaces ++ 45 :: run).dropWhile isSpace = 45 :: run := dropWhile_spaces hspaces rfl
    simp only [strtoll, hbody, List.head?_cons, true_or, if_true, List.tail_cons, htake,
      hdrop, hrun, if_false]

/-- What is read in full is the text of an integer. -/
theorem denotes_of_strtoll {s : Bytes} (hparsed : (strtoll s).parsed = true)
    (hrest : (strtoll s).rest = []) :
    ∃ v, Denotes s v := by
  obtain ⟨spaces, body, hspaces, rfl, hbody⟩ : ∃ spaces body, (∀ b ∈ spaces, isSpace b = true) ∧
      s = spaces ++ body ∧
      (spaces ++ body).dropWhile isSpace = body :=
    ⟨s.takeWhile isSpace, s.dropWhile isSpace, fun b hb => List.mem_takeWhile_imp hb,
      List.takeWhile_append_dropWhile.symm, by rw [List.takeWhile_append_dropWhile]⟩
  simp only [strtoll, hbody] at hparsed hrest
  generalize hunsigned : (if body.head? = some 45 ∨ body.head? = some 43 then body.tail else body) =
    unsigned at hparsed hrest
  by_cases hrun : unsigned.takeWhile isDigit = []
  · rw [if_pos hrun] at hparsed
    cases hparsed
  rw [if_neg hrun] at hrest
  have hne : unsigned ≠ [] := fun hnil => hrun (by rw [hnil]; rfl)
  have hdigits : ∀ b ∈ unsigned, isDigit b = true := List.dropWhile_eq_nil_iff.mp hrest
  split_ifs at hunsigned with hsign
  · subst hunsigned
    rcases hsign with hminus | hplus
    · obtain ⟨tail, rfl⟩ := List.head?_eq_some_iff.mp hminus
      exact ⟨_, spaces, tail, hspaces, hne, hdigits, Or.inr (Or.inr ⟨rfl, rfl⟩)⟩
    · obtain ⟨tail, rfl⟩ := List.head?_eq_some_iff.mp hplus
      exact ⟨_, spaces, tail, hspaces, hne, hdigits, Or.inr (Or.inl ⟨rfl, rfl⟩)⟩
  · subst hunsigned
    exact ⟨_, spaces, body, hspaces, hne, hdigits, Or.inl ⟨rfl, rfl⟩⟩

/-- A text denotes one integer. -/
theorem Denotes.unique {s : Bytes} {v w : ℤ} (hv : Denotes s v) (hw : Denotes s w)
    (hrange : int64Min ≤ v ∧ v ≤ int64Max) : v = w := by
  have heq := (strtoll_of_denotes hv).symm.trans (strtoll_of_denotes hw)
  simp only [Strtoll.mk.injEq, true_and] at heq
  obtain ⟨hvalue, hin⟩ := heq
  have hw' : int64Min ≤ w ∧ w ≤ int64Max := by
    rw [decide_eq_decide] at hin
    exact hin.mp hrange
  omega

/-- A printed number denotes itself. -/
theorem denotes_decimal (v : ℤ) : Denotes (decimal v) v := by
  cases v with
  | ofNat n =>
    refine ⟨[], digits n, by simp, digits_ne_nil n, fun b => isDigit_of_mem_digits,
      Or.inl ⟨rfl, ?_⟩⟩
    rw [ofDigits_digits]
    rfl
  | negSucc n =>
    refine ⟨[], digits (n + 1), by simp, digits_ne_nil _, fun b => isDigit_of_mem_digits,
      Or.inr (Or.inr ⟨rfl, ?_⟩)⟩
    rw [ofDigits_digits]
    rfl

/-- **A printed number is read back.** -/
theorem strtoll_decimal {v : ℤ} (h₀ : int64Min ≤ v) (h₁ : v ≤ int64Max) :
    strtoll (decimal v) = ⟨v, [], true, true⟩ := by
  rw [strtoll_of_denotes (denotes_decimal v), min_eq_right h₁, max_eq_right h₀]
  simp [h₀, h₁]

/-- A printed number is made of digits and a sign. -/
theorem isDigit_of_mem_decimal {v : ℤ} {b : UInt8} (h : b ∈ decimal v) :
    isDigit b = true ∨ b = 45 := by
  cases v with
  | ofNat n => exact Or.inl (isDigit_of_mem_digits h)
  | negSucc n =>
    rcases List.mem_cons.mp h with rfl | h
    · exact Or.inr rfl
    · exact Or.inl (isDigit_of_mem_digits h)

/-- The value `strtoll` gives fits in 64 bits. -/
theorem strtoll_value_le (s : Bytes) : int64Min ≤ (strtoll s).value ∧
    (strtoll s).value ≤ int64Max := by
  unfold strtoll
  simp only
  split_ifs <;> constructor <;> simp only [int64Min, int64Max] <;> omega

/-! ### Words -/

/-- `tolower` in the C locale. -/
def toLower (b : UInt8) : UInt8 := if 65 ≤ b && b ≤ 90 then b + 32 else b

section Words

variable {α : Type*}

/-- A list of words between separators ends as its last word does. -/
theorem exists_intercalate_eq_concat {a : α} {ls : List (List α)} (hls : ls ≠ [])
    (h : ∀ l ∈ ls, l ≠ [] ∧ a ∉ l) :
    ∃ s x, [a].intercalate ls = s ++ [x] ∧ x ≠ a := by
  induction ls with
  | nil => exact absurd rfl hls
  | cons l ls ih =>
    cases ls with
    | nil =>
      obtain ⟨hne, hmem⟩ := h l List.mem_cons_self
      refine ⟨l.dropLast, l.getLast hne, ?_, fun hx => hmem (hx ▸ List.getLast_mem hne)⟩
      rw [List.intercalate_singleton, List.dropLast_concat_getLast]
    | cons l' ls =>
      obtain ⟨s, x, hs, hx⟩ :=
        ih (List.cons_ne_nil l' ls) fun k hk => h k (List.mem_cons_of_mem l hk)
      exact ⟨l ++ [a] ++ s, x, by rw [List.intercalate_cons_cons, hs, List.append_assoc _ s], hx⟩

/-- No separators stand at the end. -/
theorem rdropWhile_intercalate [DecidableEq α] {a : α}
    {ls : List (List α)} (hls : ls ≠ []) (h : ∀ l ∈ ls, l ≠ [] ∧ a ∉ l) :
    ([a].intercalate ls).rdropWhile (· = a) = [a].intercalate ls := by
  obtain ⟨s, x, hs, hx⟩ := exists_intercalate_eq_concat hls h
  rw [hs, List.rdropWhile_concat_neg _ _ _ (by simpa using hx)]

/-- What the words and the separator have, the whole has. -/
theorem forall_mem_intercalate {p : α → Prop} {a : α} {ls : List (List α)} (ha : p a)
    (h : ∀ l ∈ ls, ∀ x ∈ l, p x) :
    ∀ x ∈ [a].intercalate ls, p x := by
  induction ls with
  | nil => intro x hx; cases hx
  | cons l ls ih =>
    have hrest := ih fun k hk => h k (List.mem_cons_of_mem l hk)
    cases ls with
    | nil => rw [List.intercalate_singleton]; exact h l List.mem_cons_self
    | cons l' ls =>
      intro x hx
      rw [List.intercalate_cons_cons, List.mem_append, List.mem_append] at hx
      rcases hx with (hx | hx) | hx
      · exact h l List.mem_cons_self x hx
      · exact List.mem_singleton.mp hx ▸ ha
      · exact hrest x hx

/-- A change of letters is made word by word. -/
theorem map_intercalate {β : Type*} (f : α → β) (a : α) (ls : List (List α)) :
    ([a].intercalate ls).map f = [f a].intercalate (ls.map (List.map f)) := by
  induction ls with
  | nil => rfl
  | cons l ls ih =>
    cases ls with
    | nil => simp
    | cons l' ls =>
      rw [List.intercalate_cons_cons, List.map_append, List.map_append, ih]
      simp only [List.map_cons, List.map_nil, List.intercalate_cons_cons]

end Words

/-- The longest pieces of a text without a separator that are not empty. -/
def tokens (separators value : Bytes) : List Bytes :=
  (value.splitOnP (· ∈ separators)).filter (· ≠ [])

theorem tokens_append_cons {separators : Bytes} {b : UInt8} (hb : b ∈ separators) (s t : Bytes) :
    tokens separators (s ++ b :: t) = tokens separators s ++ tokens separators t := by
  rw [tokens, List.splitOnP_append_cons _ _ (by simpa using hb), List.filter_append]
  rfl

/-- A word is its only token. -/
theorem tokens_eq_singleton {separators s : Bytes} (hs : s ≠ []) (hb : ∀ b ∈ s, b ∉ separators) :
    tokens separators s = [s] := by
  rw [tokens, List.splitOnP_eq_singleton (by simpa using hb)]
  simp [hs]

end IpRouter.Theory
