import IpRouter.Theory.Loop
import IpRouter.Theory.Wire

/-!
# Items one after the other

A format in which items follow one another in memory, each with its own length in
its header and padded to a multiple of some unit (`Framing`). A program walks over
them with a signed count of the bytes that are left, and does something at each;
`Framing.walk` is that loop. `Packed enc as bytes` says that `bytes` are the items
`as`, each as `enc` has it and padded; the last one may lack its padding.

`walk_packed` is how a proof goes through the loop: past all the items at which
the body goes on.
-/

namespace IpRouter.Theory

/-- The next multiple of `unit`. -/
def roundUp (unit n : ℕ) : ℕ := (n + (unit - 1)) / unit * unit

theorem le_roundUp {unit : ℕ} (hunit : 0 < unit) (n : ℕ) : n ≤ roundUp unit n := by
  have hmod := Nat.div_add_mod' (n + (unit - 1)) unit
  have hlt := Nat.mod_lt (n + (unit - 1)) hunit
  rw [roundUp]
  omega

theorem unit_le_roundUp {unit n : ℕ} (hunit : 0 < unit) (hn : 0 < n) : unit ≤ roundUp unit n :=
  Nat.le_mul_of_pos_left unit (Nat.div_pos (by omega) hunit)

theorem dvd_roundUp (unit n : ℕ) : unit ∣ roundUp unit n := Nat.dvd_mul_left _ _

theorem roundUp_le {unit n m : ℕ} (hunit : 0 < unit) (hle : n ≤ m) (hdvd : unit ∣ m) :
    roundUp unit n ≤ m := by
  obtain ⟨k, rfl⟩ := hdvd
  have hdiv : (n + (unit - 1)) / unit ≤ k := by
    rw [← Nat.lt_succ_iff, Nat.div_lt_iff_lt_mul hunit, Nat.succ_mul, Nat.mul_comm k unit]
    omega
  rw [roundUp, Nat.mul_comm unit k]
  exact Nat.mul_le_mul_right unit hdiv

/-- A format of items that have their length in a header. -/
structure Framing where
  /-- The size of the header. -/
  size : ℕ
  /-- The length of the item at an offset, with its header. -/
  lengthAt : Buffer → ℕ → ℕ
  /-- What items are padded to a multiple of. -/
  unit : ℕ
  /-- There is a header. -/
  size_pos : 0 < size
  /-- There is a unit. -/
  unit_pos : 0 < unit

variable {α β ρ : Type} {f : Framing} {b : Buffer}

namespace Framing

/-- An item that lies in what is left. -/
def Fits (f : Framing) (b : Buffer) (offset : ℕ) (remaining : ℤ) : Prop :=
  (f.size : ℤ) ≤ remaining ∧ f.size ≤ f.lengthAt b offset ∧ (f.lengthAt b offset : ℤ) ≤ remaining

instance (f : Framing) (b : Buffer) (offset : ℕ) (remaining : ℤ) :
    Decidable (f.Fits b offset remaining) :=
  inferInstanceAs (Decidable (_ ∧ _ ∧ _))

/-- The size of the item at an offset, with its padding. -/
def stride (f : Framing) (b : Buffer) (offset : ℕ) : ℕ := roundUp f.unit (f.lengthAt b offset)

theorem Fits.stride_pos {offset : ℕ} {remaining : ℤ} (h : f.Fits b offset remaining) :
    0 < f.stride b offset :=
  (f.size_pos.trans_le h.2.1).trans_le (le_roundUp f.unit_pos _)

theorem fits_of_length {offset length left : ℕ} (hsize : f.size ≤ length)
    (hlength : f.lengthAt b offset = length) (hle : length ≤ left) : f.Fits b offset left :=
  ⟨by exact_mod_cast hsize.trans hle, hlength ▸ hsize, by rw [hlength]; exact_mod_cast hle⟩

/-- The loop over the items, with `body` at each. -/
def walk (f : Framing) (b : Buffer) (body : β → ℕ → Round β ρ) (offset : ℕ) (remaining : ℤ)
    (acc : β) : Round β ρ :=
  if _hfits : f.Fits b offset remaining then
    match body acc offset with
    | .next acc => f.walk b body (offset + f.stride b offset) (remaining - f.stride b offset) acc
    | .leave r => .leave r
  else .next acc
termination_by remaining.toNat
decreasing_by
  have hpos := _hfits.stride_pos
  have hsize := _hfits.1
  have := f.size_pos
  omega

theorem walk_of_fits {body : β → ℕ → Round β ρ} {offset : ℕ} {remaining : ℤ} {acc acc' : β}
    (h : f.Fits b offset remaining) (hbody : body acc offset = .next acc') :
    f.walk b body offset remaining acc =
      f.walk b body (offset + f.stride b offset) (remaining - f.stride b offset) acc' := by
  rw [walk, dif_pos h, hbody]

theorem walk_of_leave {body : β → ℕ → Round β ρ} {offset : ℕ} {remaining : ℤ} {acc : β} {r : ρ}
    (h : f.Fits b offset remaining) (hbody : body acc offset = .leave r) :
    f.walk b body offset remaining acc = .leave r := by
  rw [walk, dif_pos h, hbody]

theorem walk_of_nothing {body : β → ℕ → Round β ρ} {offset : ℕ} {remaining : ℤ} {acc : β}
    (h : remaining ≤ 0) :
    f.walk b body offset remaining acc = .next acc := by
  have hsize := f.size_pos
  rw [walk, dif_neg fun hfits => ?_]
  have := hfits.1
  omega

end Framing

/-- `bytes` are the items `as`, one after the other and padded to multiples of `unit`. -/
inductive Packed (unit : ℕ) (enc : α → Bytes → Prop) : List α → Bytes → Prop
  /-- No item. -/
  | nil : Packed unit enc [] []
  /-- The last item, which may lack padding. -/
  | last {a : α} {bytes padding : Bytes} : enc a bytes →
      bytes.length + padding.length ≤ roundUp unit bytes.length →
      Packed unit enc [a] (bytes ++ padding)
  /-- An item, padded, and more items. -/
  | cons {a : α} {as : List α} {bytes padding rest : Bytes} : enc a bytes →
      bytes.length + padding.length = roundUp unit bytes.length → Packed unit enc as rest →
      Packed unit enc (a :: as) (bytes ++ padding ++ rest)

/-- An item that needs no padding. -/
theorem Packed.exact {unit : ℕ} {enc : α → Bytes → Prop} {a : α} {as : List α}
    {bytes rest : Bytes} (ha : enc a bytes) (hlength : bytes.length = roundUp unit bytes.length)
    (hrest : Packed unit enc as rest) :
    Packed unit enc (a :: as) (bytes ++ rest) := by
  have hcons := @Packed.cons _ _ _ a as bytes [] rest ha hlength hrest
  rwa [List.append_nil] at hcons

variable {enc : α → Bytes → Prop} {body : β → ℕ → Round β ρ}

/-- One more item, after items that have all their padding. -/
theorem Packed.concat {unit : ℕ} (hunit : 0 < unit) {as : List α} {a : α}
    {bytes item padding : Bytes} (hpacked : Packed unit enc as bytes) (hwhole : unit ∣ bytes.length)
    (hitem : enc a item) (hpadding : item.length + padding.length = roundUp unit item.length) :
    Packed unit enc (as ++ [a]) (bytes ++ (item ++ padding)) := by
  induction hpacked with
  | nil =>
    rw [List.nil_append, List.nil_append]
    exact .last hitem hpadding.le
  | @last a' bytes' padding' hitem' hpadding' =>
    rw [List.length_append] at hwhole
    have hle := roundUp_le hunit (Nat.le_add_right bytes'.length padding'.length) hwhole
    exact .cons hitem' (hpadding'.antisymm hle) (.last hitem hpadding.le)
  | @cons a' as bytes' padding' rest hitem' hpadding' _ ih =>
    rw [List.length_append, List.length_append, hpadding',
      Nat.dvd_add_right (dvd_roundUp unit _)] at hwhole
    rw [List.append_assoc]
    exact .cons hitem' hpadding' (ih hwhole)

/-- The loop at the first of some items. -/
theorem walk_item (henc : ∀ a bytes offset, enc a bytes → b.Holds offset bytes →
      f.size ≤ bytes.length ∧ f.lengthAt b offset = bytes.length)
    {a : α} {as : List α} {bytes : Bytes} {offset : ℕ} (hpacked : Packed f.unit enc (a :: as) bytes)
    (hholds : b.Holds offset bytes) : f.Fits b offset bytes.length ∧
      (∃ item, enc a item ∧ b.Holds offset item) ∧
      ∃ rest offset', Packed f.unit enc as rest ∧ b.Holds offset' rest ∧
        ∀ acc acc', body acc offset = .next acc' →
        f.walk b body offset bytes.length acc = f.walk b body offset' rest.length acc' := by
  cases hpacked with
  | @last a item padding hitem hpadding =>
    obtain ⟨hsize, hlength⟩ := henc a item offset hitem hholds.left
    have hfits : f.Fits b offset (item ++ padding).length :=
      Framing.fits_of_length hsize hlength (by rw [List.length_append]; omega)
    refine ⟨hfits, ⟨item, hitem, hholds.left⟩, [], offset + (item ++ padding).length, .nil, ?_,
      fun acc acc' hbody => ?_⟩
    · rw [← List.append_nil (item ++ padding)] at hholds
      exact hholds.right
    · have hstride : (item ++ padding).length ≤ f.stride b offset := by
        rw [Framing.stride, hlength, List.length_append]
        exact hpadding
      rw [Framing.walk_of_fits hfits hbody, Framing.walk_of_nothing (by omega),
        Framing.walk_of_nothing (by simp)]
  | @cons a as item padding rest hitem hpadding hrest =>
    obtain ⟨hsize, hlength⟩ := henc a item offset hitem hholds.left.left
    have hfits : f.Fits b offset (item ++ padding ++ rest).length :=
      Framing.fits_of_length hsize hlength (by rw [List.length_append, List.length_append]; omega)
    have hstride : f.stride b offset = (item ++ padding).length := by
      rw [Framing.stride, hlength, List.length_append]
      exact hpadding.symm
    refine ⟨hfits, ⟨item, hitem, hholds.left.left⟩, rest, offset + (item ++ padding).length, hrest,
      hholds.right, fun acc acc' hbody => ?_⟩
    rw [Framing.walk_of_fits hfits hbody, hstride, @List.length_append _ (item ++ padding)]
    congr 1
    omega

/-- **The loop goes past the items at which the body goes on.** -/
theorem walk_packed (henc : ∀ a bytes offset, enc a bytes → b.Holds offset bytes →
      f.size ≤ bytes.length ∧ f.lengthAt b offset = bytes.length)
    {step : β → α → β} {passed as : List α}
    (hbody : ∀ a ∈ passed, ∀ bytes offset acc, enc a bytes → b.Holds offset bytes →
      body acc offset = .next (step acc a))
    {bytes : Bytes} {offset : ℕ} (hpacked : Packed f.unit enc (passed ++ as) bytes)
    (hholds : b.Holds offset bytes)
    (acc : β) : ∃ rest offset', Packed f.unit enc as rest ∧ b.Holds offset' rest ∧
      f.walk b body offset bytes.length acc = f.walk b body offset' rest.length
        (passed.foldl step acc) := by
  induction passed generalizing bytes offset acc with
  | nil => exact ⟨bytes, offset, hpacked, hholds, rfl⟩
  | cons a passed ih =>
    obtain ⟨-, ⟨item, hitem, hat⟩, rest, offset', hrest, hholds', hwalk⟩ :=
      walk_item henc hpacked hholds
    obtain ⟨rest', offset'', hrest', hholds'', hwalk'⟩ :=
      ih (fun a' ha' => hbody a' (List.mem_cons_of_mem _ ha')) hrest hholds' (step acc a)
    refine ⟨rest', offset'', hrest', hholds'', ?_⟩
    rw [hwalk acc _ (hbody a List.mem_cons_self item offset acc hitem hat), hwalk', List.foldl_cons]

/-- The loop over items at all of which the body goes on. -/
theorem walk_all (henc : ∀ a bytes offset, enc a bytes → b.Holds offset bytes →
      f.size ≤ bytes.length ∧ f.lengthAt b offset = bytes.length)
    {step : β → α → β} {as : List α}
    (hbody : ∀ a ∈ as, ∀ bytes offset acc, enc a bytes → b.Holds offset bytes →
      body acc offset = .next (step acc a))
    {bytes : Bytes} {offset : ℕ} (hpacked : Packed f.unit enc as bytes)
    (hholds : b.Holds offset bytes) (acc : β) :
    f.walk b body offset bytes.length acc = .next (as.foldl step acc) := by
  rw [← List.append_nil as] at hpacked
  obtain ⟨rest, offset', hrest, -, hwalk⟩ := walk_packed henc hbody hpacked hholds acc
  cases hrest
  rw [hwalk, Framing.walk_of_nothing (by simp)]

/-- The items lie one after the other from an offset to another, each where `R` says. -/
inductive Laid (R : ℕ → α → ℕ → Prop) : ℕ → List α → ℕ → Prop
  /-- No item. -/
  | nil {offset : ℕ} : Laid R offset [] offset
  /-- An item, and more items from where it ends. -/
  | cons {offset mid next : ℕ} {a : α} {as : List α} : R offset a mid → Laid R mid as next →
      Laid R offset (a :: as) next

theorem laid_cons {R : ℕ → α → ℕ → Prop} {offset next : ℕ} {a : α} {as : List α} :
    Laid R offset (a :: as) next ↔ ∃ mid, R offset a mid ∧ Laid R mid as next :=
  ⟨fun | .cons ha has => ⟨_, ha, has⟩, fun ⟨_, ha, has⟩ => .cons ha has⟩

theorem Laid.split {R : ℕ → α → ℕ → Prop} {offset next : ℕ} {as bs : List α}
    (h : Laid R offset (as ++ bs) next) :
    ∃ mid, Laid R offset as mid ∧ Laid R mid bs next := by
  induction as generalizing offset with
  | nil => exact ⟨offset, .nil, h⟩
  | cons a as ih =>
    obtain ⟨mid, ha, has⟩ := laid_cons.mp h
    obtain ⟨mid', has, hbs⟩ := ih has
    exact ⟨mid', .cons ha has, hbs⟩

end IpRouter.Theory
