import Mathlib.Algebra.Ring.Nat
import Mathlib.Data.List.GetD

/-! Pieces at an offset of a longer list, numbers in big-endian bytes and fields that carry their
length, and readers that a longer list does not change. -/
namespace Portcall.Segment

section At
variable {α : Type*} {list piece piece' : List α} {offset : ℕ}

/-- The list has this piece at this offset. -/
def At (list : List α) (offset : ℕ) (piece : List α) : Prop :=
  ∃ before after, list = before ++ piece ++ after ∧ before.length = offset

lemma at_self (list : List α) : At list 0 list := ⟨[], [], (List.append_nil list).symm, rfl⟩

lemma at_zero (rest : List α) : At (piece ++ rest) 0 piece := ⟨[], rest, rfl, rfl⟩

lemma At.le (h : At list offset piece) : offset + piece.length ≤ list.length := by
  obtain ⟨before, after, rfl, rfl⟩ := h
  simp

/-- A piece made of two is there as one after the other. -/
theorem at_append_iff : At list offset (piece ++ piece') ↔
    At list offset piece ∧ At list (offset + piece.length) piece' := by
  constructor
  · rintro ⟨before, after, rfl, rfl⟩
    exact ⟨⟨before, piece' ++ after, by simp, rfl⟩, ⟨before ++ piece, after, by simp, by simp⟩⟩
  · rintro ⟨⟨before, after, rfl, rfl⟩, ⟨before', after', heq, hlen⟩⟩
    rw [← List.length_append] at hlen
    rw [List.append_assoc before'] at heq
    obtain ⟨rfl, rfl⟩ := List.append_inj heq hlen.symm
    exact ⟨before, after', by simp, rfl⟩

lemma At.left (h : At list offset (piece ++ piece')) : At list offset piece :=
  (at_append_iff.mp h).1

lemma At.right (h : At list offset (piece ++ piece')) : At list (offset + piece.length) piece' :=
  (at_append_iff.mp h).2

lemma At.getD (h : At list offset piece) {index : ℕ} (hindex : index < piece.length) (a : α) :
    list.getD (offset + index) a = piece.getD index a := by
  obtain ⟨before, after, rfl, rfl⟩ := h
  rw [List.append_assoc, List.getD_append_right _ _ _ _ (Nat.le_add_right _ _),
    Nat.add_sub_cancel_left, List.getD_append _ _ _ _ hindex]

/-- Cut out of the list, the piece is what it was. -/
lemma At.drop_take (h : At list offset piece) :
    (list.take (offset + piece.length)).drop offset = piece := by
  obtain ⟨before, after, rfl, rfl⟩ := h
  rw [← List.length_append, List.take_left, List.drop_left]

end At

section BigEndian

/-- A number in so many bytes, the highest first. -/
def bigEndian : ℕ → ℕ → List UInt8
  | 0, _ => []
  | width + 1, n => bigEndian width (n / 256) ++ [UInt8.ofNat n]

/-- The number that bytes stand for, the highest first. -/
def ofBigEndian (digits : List UInt8) : ℕ :=
  digits.foldl (fun n digit => n * 256 + digit.toNat) 0

@[simp] lemma length_bigEndian (width n : ℕ) : (bigEndian width n).length = width := by
  induction width generalizing n with
  | zero => rfl
  | succ width ih => rw [bigEndian, List.length_append, ih, List.length_singleton]

lemma ofBigEndian_concat (digits : List UInt8) (digit : UInt8) :
    ofBigEndian (digits ++ [digit]) = ofBigEndian digits * 256 + digit.toNat := by
  rw [ofBigEndian, List.foldl_append]
  rfl

/-- A number that fits is read back. -/
theorem ofBigEndian_bigEndian {width n : ℕ} (h : n < 256 ^ width) :
    ofBigEndian (bigEndian width n) = n := by
  induction width generalizing n with
  | zero =>
    rw [Nat.pow_zero, Nat.lt_one_iff] at h
    rw [h]
    rfl
  | succ width ih =>
    have hhigh : n / 256 < 256 ^ width := by
      rw [Nat.div_lt_iff_lt_mul (by decide)]
      rwa [Nat.pow_succ] at h
    rw [bigEndian, ofBigEndian_concat, ih hhigh]
    change n / 256 * 256 + n % 256 = n
    omega

/-- Bytes behind their own number, which is written in so many bytes. -/
structure Field (width : ℕ) where
  octets : List UInt8
  fits : octets.length < 256 ^ width

namespace Field
variable {width : ℕ} (field : Field width)

def bytes : List UInt8 := bigEndian width field.octets.length ++ field.octets

@[simp] lemma length_bytes : field.bytes.length = width + field.octets.length := by
  rw [bytes, List.length_append, length_bigEndian]

end Field
end BigEndian

section Readers
variable {α : Type*} {ε : Type*} {β γ : Type}

/-- What a reader gets from a list it also gets from a longer one. -/
def Stable (read : List α → Except ε β) : Prop :=
  ∀ list more b, read list = .ok b → read (list ++ more) = .ok b

/-- A reader that fails for no other reason. -/
def FailsWith (e : ε) (read : List α → Except ε β) : Prop :=
  ∀ list e', read list = .error e' → e' = e

lemma bind_eq_ok {result : Except ε β} {rest : β → Except ε γ} {c : γ} :
    (result >>= rest) = .ok c ↔ ∃ b, result = .ok b ∧ rest b = .ok c := by
  cases result with
  | error e => exact ⟨nofun, nofun⟩
  | ok b => exact ⟨fun h => ⟨b, rfl, h⟩, fun ⟨_, hb, h⟩ => by cases hb; exact h⟩

lemma bind_eq_error {result : Except ε β} {rest : β → Except ε γ} {e : ε} :
    (result >>= rest) = .error e ↔
      result = .error e ∨ ∃ b, result = .ok b ∧ rest b = .error e := by
  cases result with
  | error e' => exact ⟨fun h => Or.inl (by cases h; rfl), fun h => by
      rcases h with h | ⟨b, hb, -⟩
      · cases h
        rfl
      · cases hb⟩
  | ok b => exact ⟨fun h => Or.inr ⟨b, rfl, h⟩, fun h => by
      rcases h with h | ⟨_, hb, h⟩
      · cases h
      · cases hb
        exact h⟩

variable {read : List α → Except ε β} {rest : β → List α → Except ε γ} {e : ε}

lemma stable_const (result : Except ε β) : Stable fun _ : List α => result :=
  fun _ _ _ h => h

lemma failsWith_ok (b : β) : FailsWith e fun _ : List α => (.ok b : Except ε β) := nofun

lemma failsWith_error : FailsWith e fun _ : List α => (.error e : Except ε β) :=
  fun _ _ h => by
    cases h
    rfl

/-- One reader after another, which starts from what the first one read. -/
lemma Stable.bind (hread : Stable read) (hrest : ∀ b, Stable (rest b)) :
    Stable fun list => read list >>= fun b => rest b list := by
  intro list more c h
  obtain ⟨b, hb, hc⟩ := bind_eq_ok.mp h
  exact bind_eq_ok.mpr ⟨b, hread list more b hb, hrest b list more c hc⟩

lemma FailsWith.bind (hread : FailsWith e read) (hrest : ∀ b, FailsWith e (rest b)) :
    FailsWith e fun list => read list >>= fun b => rest b list := by
  intro list e' h
  rcases bind_eq_error.mp h with h | ⟨b, -, h⟩
  · exact hread list e' h
  · exact hrest b list e' h

variable {p : Prop} [Decidable p] {read' : List α → Except ε β}

lemma Stable.ite (h : Stable read) (h' : Stable read') :
    Stable fun list => if p then read list else read' list := by
  by_cases hp : p
  · simpa only [hp, if_true] using h
  · simpa only [hp, if_false] using h'

lemma FailsWith.ite (h : FailsWith e read) (h' : FailsWith e read') :
    FailsWith e fun list => if p then read list else read' list := by
  by_cases hp : p
  · simpa only [hp, if_true] using h
  · simpa only [hp, if_false] using h'

end Readers
end Portcall.Segment
