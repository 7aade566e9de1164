import YarnCopilot.Common.MapLoop

/-!
# Resource quantities

A quantity of `apimachinery` by what its text says: its value, which is exact down to 10⁻⁹, and the
kind of suffix it is printed with. Lists of resources are added resource by resource.
-/

namespace YarnCopilot

/-- `resource.Format`. -/
inductive QuantityFormat
  | decimalSI
  | binarySI
  | decimalExponent
deriving DecidableEq, Repr

/-- The value has a suffix of its format when it is printed. A value without one is read back as
`DecimalSI`. -/
def QuantityFormat.Fits : QuantityFormat → ℤ → Prop
  | .decimalSI, _ => True
  | .binarySI, nano => nano ≠ 0 ∧ 1024 * 10 ^ 9 ∣ nano
  | .decimalExponent, nano => nano ≠ 0 ∧ (10 ^ 12 ∣ nano ∨ ¬ 10 ^ 9 ∣ nano)

instance (format : QuantityFormat) (nano : ℤ) : Decidable (format.Fits nano) :=
  match format with
  | .decimalSI => .isTrue trivial
  | .binarySI => inferInstanceAs (Decidable (nano ≠ 0 ∧ 1024 * 10 ^ 9 ∣ nano))
  | .decimalExponent => inferInstanceAs (Decidable (nano ≠ 0 ∧ (10 ^ 12 ∣ nano ∨ ¬ 10 ^ 9 ∣ nano)))

/-- `resource.Quantity`: the value in units of 10⁻⁹, and the format it is printed in. -/
@[ext] structure Quantity where
  nano : ℤ
  format : QuantityFormat
  fits : format.Fits nano
deriving DecidableEq

namespace Quantity

/-- A value in a format. -/
def ofNano (nano : ℤ) (format : QuantityFormat) : Quantity :=
  if h : format.Fits nano then ⟨nano, format, h⟩ else ⟨nano, .decimalSI, trivial⟩

@[simp] theorem nano_ofNano (nano : ℤ) (format : QuantityFormat) : (ofNano nano format).nano = nano := by
  rw [ofNano]
  split <;> rfl

theorem ofNano_nano_format (q : Quantity) : ofNano q.nano q.format = q := dif_pos q.fits

instance : LE Quantity := ⟨fun a b => a.nano ≤ b.nano⟩

instance (a b : Quantity) : Decidable (a ≤ b) := inferInstanceAs (Decidable (a.nano ≤ b.nano))

instance : Zero Quantity := ⟨⟨0, .decimalSI, trivial⟩⟩

theorem le_def {a b : Quantity} : a ≤ b ↔ a.nano ≤ b.nano := Iff.rfl

@[simp] theorem nano_zero : (0 : Quantity).nano = 0 := rfl

/-- Zero is printed in one way. -/
theorem eq_zero_iff {q : Quantity} : q = 0 ↔ q.nano = 0 := by
  constructor
  · rintro rfl
    rfl
  · intro h
    rcases q with ⟨nano, _ | _ | _, hfits⟩
    · exact Quantity.ext h rfl
    · exact absurd h hfits.1
    · exact absurd h hfits.1

/-- `resource.NewQuantity` with `DecimalSI`. -/
def new (value : ℤ) : Quantity := ⟨value * 10 ^ 9, .decimalSI, trivial⟩

/-- `resource.NewQuantity` with `BinarySI`. -/
def newBinarySI (value : ℤ) : Quantity := ofNano (value * 10 ^ 9) .binarySI

/-- `resource.NewMilliQuantity` with `DecimalSI`. -/
def newMilli (value : ℤ) : Quantity := ⟨value * 10 ^ 6, .decimalSI, trivial⟩

@[simp] theorem nano_newBinarySI (value : ℤ) : (newBinarySI value).nano = value * 10 ^ 9 :=
  nano_ofNano _ _

theorem newMilli_mul (value : ℤ) : newMilli (value * 1000) = new value := by
  refine Quantity.ext ?_ rfl
  simp only [newMilli, new, mul_assoc]
  norm_num

/-! ## Rounding up -/

/-- The quantity in units of `10 ^ scale`, rounded up. -/
def ceil (q : Quantity) (scale : ℕ) : ℤ := -(-q.nano / 10 ^ (scale + 9))

/-- `resource.Kilo`. -/
def kilo : ℕ := 3

/-- `resource.Mega`. -/
def mega : ℕ := 6

variable (q : Quantity) (scale : ℕ)

/-- Rounding up loses nothing. -/
theorem nano_le_ceil : q.nano ≤ q.ceil scale * 10 ^ (scale + 9) := by
  have h : -q.nano / 10 ^ (scale + 9) * 10 ^ (scale + 9) ≤ -q.nano :=
    Int.ediv_mul_le _ (by positivity)
  rw [ceil, neg_mul]
  omega

/-- Rounding up adds less than one unit. -/
theorem ceil_lt : q.ceil scale * 10 ^ (scale + 9) < q.nano + 10 ^ (scale + 9) := by
  have h : -q.nano < (-q.nano / 10 ^ (scale + 9) + 1) * 10 ^ (scale + 9) :=
    Int.lt_ediv_add_one_mul_self _ (by positivity)
  rw [ceil, neg_mul]
  rw [add_mul, one_mul] at h
  omega

/-- Nothing is added exactly when the value is a whole number of units. -/
theorem ceil_le_iff_dvd : q.ceil scale * 10 ^ (scale + 9) ≤ q.nano ↔ 10 ^ (scale + 9) ∣ q.nano := by
  constructor
  · intro h
    exact ⟨q.ceil scale, by linarith [nano_le_ceil q scale]⟩
  · intro h
    rw [ceil, neg_mul, Int.ediv_mul_cancel (by exact_mod_cast h.neg_right), neg_neg]

theorem ceil_nonneg (h : 0 ≤ q) : 0 ≤ q.ceil scale := by
  have hpos : (0 : ℤ) < 10 ^ (scale + 9) := by positivity
  have hneg : -q.nano / 10 ^ (scale + 9) ≤ 0 :=
    Int.ediv_nonpos_of_nonpos_of_neg (by simpa using le_def.mp h) hpos
  rw [ceil]
  omega

end Quantity

/-! ## Sums -/

namespace Quantity

/-- `Quantity.Add`: the sum has the format of the first quantity, unless that is zero. -/
instance : Add Quantity :=
  ⟨fun a b => ofNano (a.nano + b.nano) (if a.nano = 0 then b.format else a.format)⟩

@[simp] theorem nano_add (a b : Quantity) : (a + b).nano = a.nano + b.nano := nano_ofNano _ _

/-- Add a quantity to a sum that may not have begun. -/
def addTo (sum : Option Quantity) (q : Quantity) : Option Quantity := some (sum.elim q (· + q))

/-- The quantities listed for a resource added up in their order, if any are listed. -/
def total (qs : List Quantity) : Option Quantity := qs.foldl addTo none

theorem nano_foldl_addTo (q : Quantity) (qs : List Quantity) :
    (qs.foldl addTo (some q)).map nano = some (q.nano + (qs.map nano).sum) := by
  induction qs generalizing q with
  | nil => simp
  | cons q' qs ih =>
    rw [List.foldl_cons, addTo, Option.elim_some, ih, nano_add, List.map_cons, List.sum_cons,
      add_assoc]

/-- The value of the total is the sum of the values. -/
theorem nano_total (qs : List Quantity) :
    (total qs).map nano = if qs = [] then none else some (qs.map nano).sum := by
  cases qs with
  | nil => rfl
  | cons q qs =>
    rw [total, List.foldl_cons, addTo, Option.elim_none, nano_foldl_addTo, if_neg (by simp),
      List.map_cons, List.sum_cons]

end Quantity

/-- `corev1.ResourceList`. -/
abbrev ResourceList := Finmap fun _ : String => Quantity

namespace ResourceList

/-- `quotav1.Add`: the sum over the union of the resources. -/
def add (a b : ResourceList) : ResourceList :=
  insertAll (fun r q => (a.lookup r).elim q (· + q)) (sortedEntries b) a

theorem lookup_add (a b : ResourceList) (r : String) :
    (a.add b).lookup r = (b.lookup r).elim (a.lookup r) (Quantity.addTo (a.lookup r)) := by
  rw [add, lookup_insertAll (nodupKeys_sortedEntries b), dlookup_sortedEntries]
  cases b.lookup r <;> rfl

/-- Adding up lists adds up what they have of every resource. -/
theorem lookup_foldl_add {ι : Type*} (resources : ι → ResourceList) (is : List ι)
    (start : ResourceList) (r : String) :
    (is.foldl (fun sum i => sum.add (resources i)) start).lookup r =
      (is.filterMap fun i => (resources i).lookup r).foldl Quantity.addTo (start.lookup r) := by
  induction is generalizing start with
  | nil => rfl
  | cons i is ih =>
    rw [List.foldl_cons, ih, lookup_add]
    cases hi : (resources i).lookup r with
    | none => simp [hi]
    | some q => simp [hi]

end ResourceList

end YarnCopilot
