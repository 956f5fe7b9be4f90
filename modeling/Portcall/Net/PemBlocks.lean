import Portcall.Library.Segment
import Portcall.Library.Standing
import Portcall.Net.Pem

/-! The certificate blocks of a text, wherever they are, and which of them are found: taken from the
first on, those that share no dashes with one taken before. -/
namespace Portcall.Net
open Segment Standing

/-- A block with this body. -/
def blockOf (body : List Char) : List Char := beginCertificate ++ (body ++ endCertificate)

/-- A body that is the base64 of these bytes, with white space anywhere in it. -/
def IsBase64Of (body : List Char) (der : List UInt8) : Prop :=
  ∃ digits pad, body.filter (fun c => !Text.isWhitespace c) = digits ++ pad ∧ digits ≠ [] ∧
    (∀ c ∈ digits, isBase64Digit c = true) ∧ (pad = [] ∨ pad = ['='] ∨ pad = ['=', '=']) ∧
    (digits ++ pad).length % 4 = 0 ∧ der = Base64.decode (digits ++ pad)

/-- From here to there a text has a certificate block, whether or not its body is base64. -/
def BlockSpan (text : List Char) (start stop : ℕ) : Prop :=
  ∃ body, At text start (blockOf body) ∧ (∀ c ∈ body, isBodyChar c = true) ∧
    stop = start + (blockOf body).length

/-- Somewhere in a text is a block of the certificate of these bytes. -/
def PemBlock (text : String) (der : List UInt8) : Prop :=
  ∃ start body, At text.toList start (blockOf body) ∧ IsBase64Of body der

/-- One of these blocks does not begin inside an earlier block that is taken itself. -/
def StandingBlock (text : String) (der : List UInt8) : Prop :=
  ∃ start body, At text.toList start (blockOf body) ∧ IsBase64Of body der ∧
    Stands (BlockSpan text.toList) start

/-- Where a certificate block of a text is taken at all, each of the text's certificates has one that
is. -/
def LosesNone (text : String) : Prop :=
  (∃ der, StandingBlock text der) → ∀ der, PemBlock text der → StandingBlock text der

section Bodies
variable {text body after : List Char} {start stop : ℕ}

lemma length_blockOf : (blockOf body).length = body.length + 52 := by
  rw [blockOf, List.length_append, List.length_append]
  change 27 + (body.length + 25) = body.length + 52
  omega

/-- What a text starts with is read as a block exactly when it is one. -/
lemma certificateBlock_eq_some_iff : certificateBlock text = some (body, after) ↔
    text = blockOf body ++ after ∧ ∀ c ∈ body, isBodyChar c = true := by
  rw [blockOf, List.append_assoc, List.append_assoc]
  constructor
  · exact certificateBlock_eq_some
  · rintro ⟨rfl, hbody⟩
    exact certificateBlock_append hbody

/-- A block at the start of a text is the one that is read there. -/
lemma exists_certificateBlock_of_at_zero (hat : At text 0 (blockOf body))
    (hbody : ∀ c ∈ body, isBodyChar c = true) :
    ∃ after, certificateBlock text = some (body, after) := by
  obtain ⟨before, after, htext, hlength⟩ := hat
  rw [List.length_eq_zero_iff.mp hlength, List.nil_append] at htext
  exact ⟨after, certificateBlock_eq_some_iff.mpr ⟨htext, hbody⟩⟩

lemma blockSpan_zero_iff :
    BlockSpan text 0 stop ↔ ∃ body after, certificateBlock text = some (body, after) ∧
      stop = (blockOf body).length := by
  simp only [BlockSpan, Nat.zero_add]
  constructor
  · rintro ⟨body, hat, hbody, hstop⟩
    obtain ⟨after, hblock⟩ := exists_certificateBlock_of_at_zero hat hbody
    exact ⟨body, after, hblock, hstop⟩
  · rintro ⟨body, after, hblock, hstop⟩
    obtain ⟨rfl, hbody⟩ := certificateBlock_eq_some_iff.mp hblock
    exact ⟨body, at_zero after, hbody, hstop⟩

/-- Within the block that a text starts with, no other is taken. -/
lemma eq_zero_of_stands {found : List Char} (hblock : certificateBlock text = some (found, after))
    (hlt : start < (blockOf found).length) (hstands : Stands (BlockSpan text) start) :
    start = 0 := by
  by_contra hne
  have hfirst : BlockSpan text 0 (blockOf found).length :=
    blockSpan_zero_iff.mpr ⟨found, after, hblock, rfl⟩
  exact not_stands_of_first hfirst (Nat.pos_of_ne_zero hne) hlt hstands

/-- Behind what comes first, a text has what the rest has. -/
lemma at_add_iff {first rest piece : List Char} :
    At (first ++ rest) (first.length + start) piece ↔ At rest start piece := by
  constructor
  · rintro ⟨before, after, heq, hlength⟩
    rw [List.append_assoc] at heq
    obtain ⟨more, rfl⟩ : first <+: before :=
      List.prefix_of_prefix_length_le ⟨rest, heq⟩ ⟨piece ++ after, rfl⟩ (by omega)
    rw [List.append_assoc, List.append_right_inj] at heq
    rw [List.length_append] at hlength
    exact ⟨more, after, by rw [heq, List.append_assoc], by omega⟩
  · rintro ⟨before, after, rfl, rfl⟩
    exact ⟨first ++ before, after, by simp only [List.append_assoc], List.length_append⟩

lemma blockSpan_add_iff {first rest : List Char} :
    BlockSpan (first ++ rest) (first.length + start) (first.length + stop) ↔
      BlockSpan rest start stop := by
  simp only [BlockSpan, at_add_iff, Nat.add_assoc, Nat.add_left_cancel_iff]

/-- A block that stands at a place stands at its place in what comes after a block that is taken, or
after a character that no block begins with. -/
lemma stands_append_iff {first rest : List Char}
    (hclear : ∀ earlier stop, earlier < first.length → BlockSpan (first ++ rest) earlier stop →
      Stands (BlockSpan (first ++ rest)) earlier → stop ≤ first.length) :
    Stands (BlockSpan (first ++ rest)) (first.length + start) ↔ Stands (BlockSpan rest) start := by
  rw [stands_add_iff hclear]
  simp only [blockSpan_add_iff]

/-- The bodies that the scan finds are those of the blocks that are taken. -/
theorem mem_certificateBodies_iff : body ∈ certificateBodies text ↔
    ∃ start, At text start (blockOf body) ∧ (∀ c ∈ body, isBodyChar c = true) ∧
      Stands (BlockSpan text) start := by
  fun_induction certificateBodies text with
  | case1 =>
    refine iff_of_false List.not_mem_nil ?_
    rintro ⟨start, hat, -⟩
    have hle := hat.le
    rw [length_blockOf, List.length_nil] at hle
    omega
  | case2 c rest found after hblock _ ih =>
    -- the first block is taken, and what begins inside it is not
    obtain ⟨htext, hfound⟩ := certificateBlock_eq_some_iff.mp hblock
    rw [htext] at hblock
    have hclear : ∀ earlier stop, earlier < (blockOf found).length →
        BlockSpan (blockOf found ++ after) earlier stop →
        Stands (BlockSpan (blockOf found ++ after)) earlier → stop ≤ (blockOf found).length := by
      intro earlier stop hlt hspan hstands
      obtain rfl := eq_zero_of_stands hblock hlt hstands
      obtain ⟨body, after', hblock', rfl⟩ := blockSpan_zero_iff.mp hspan
      rw [hblock, Option.some.injEq, Prod.mk.injEq] at hblock'
      rw [hblock'.1]
    rw [List.mem_cons, ih, htext]
    constructor
    · rintro (rfl | ⟨start, hat, hbody, hstands⟩)
      · exact ⟨0, at_zero after, hfound, stands_zero⟩
      · exact ⟨_, at_add_iff.mpr hat, hbody, (stands_append_iff hclear).mpr hstands⟩
    · rintro ⟨start, hat, hbody, hstands⟩
      by_cases hstart : start < (blockOf found).length
      · obtain rfl := eq_zero_of_stands hblock hstart hstands
        obtain ⟨after', hblock'⟩ := exists_certificateBlock_of_at_zero hat hbody
        rw [hblock, Option.some.injEq, Prod.mk.injEq] at hblock'
        exact Or.inl hblock'.1.symm
      · obtain ⟨start, rfl⟩ := Nat.exists_eq_add_of_le (Nat.le_of_not_lt hstart)
        exact Or.inr ⟨start, at_add_iff.mp hat, hbody, (stands_append_iff hclear).mp hstands⟩
  | case3 c rest hblock ih =>
    -- no block begins with the first character
    have hnone : ∀ stop, ¬BlockSpan ([c] ++ rest) 0 stop := by
      intro stop hspan
      obtain ⟨body, after, hblock', -⟩ := blockSpan_zero_iff.mp hspan
      rw [List.singleton_append, hblock] at hblock'
      cases hblock'
    have hclear : ∀ earlier stop, earlier < [c].length → BlockSpan ([c] ++ rest) earlier stop →
        Stands (BlockSpan ([c] ++ rest)) earlier → stop ≤ [c].length := by
      intro earlier stop hlt hspan
      rw [Nat.lt_one_iff.mp hlt] at hspan
      exact absurd hspan (hnone stop)
    rw [ih, ← List.singleton_append]
    constructor
    · rintro ⟨start, hat, hbody, hstands⟩
      exact ⟨_, at_add_iff.mpr hat, hbody, (stands_append_iff hclear).mpr hstands⟩
    · rintro ⟨start, hat, hbody, hstands⟩
      rcases Nat.eq_zero_or_pos start with rfl | hpos
      · exact absurd ⟨body, hat, hbody, rfl⟩ (hnone (0 + (blockOf body).length))
      · obtain ⟨start, rfl⟩ := Nat.exists_eq_add_of_le (Nat.succ_le_of_lt hpos)
        exact ⟨start, at_add_iff.mp hat, hbody, (stands_append_iff hclear).mp hstands⟩

end Bodies

section Blocks
variable {text : String} {body : List Char} {der : List UInt8} {pem : String}

/-- Digits and then padding are what the pattern for base64 looks for. -/
lemma isBase64Body_iff {stripped : List Char} : isBase64Body stripped = true ↔
    ∃ digits pad, stripped = digits ++ pad ∧ digits ≠ [] ∧
      (∀ c ∈ digits, isBase64Digit c = true) ∧ (pad = [] ∨ pad = ['='] ∨ pad = ['=', '=']) := by
  unfold isBase64Body
  rw [Bool.and_eq_true, Bool.not_eq_true', List.isEmpty_eq_false_iff, decide_eq_true_eq]
  simp only [List.mem_cons, List.not_mem_nil, or_false]
  constructor
  · rintro ⟨hne, hpad⟩
    exact ⟨_, _, List.takeWhile_append_dropWhile.symm, hne,
      fun c hc => List.all_eq_true.mp List.all_takeWhile c hc, hpad⟩
  · rintro ⟨digits, pad, rfl, hne, hdigits, hpad⟩
    have hstop : pad.takeWhile isBase64Digit = [] ∧ pad.dropWhile isBase64Digit = pad := by
      rcases hpad with rfl | rfl | rfl <;> decide
    rw [List.takeWhile_append_of_pos hdigits, List.dropWhile_append_of_pos hdigits, hstop.1,
      hstop.2, List.append_nil]
    exact ⟨hne, hpad⟩

/-- The check of a body lets through what is base64, without its white space. -/
lemma normaliseBase64_map_decode_iff :
    (normaliseBase64 body).map Base64.decode = some der ↔ IsBase64Of body der := by
  rw [Option.map_eq_some_iff]
  unfold normaliseBase64 IsBase64Of
  dsimp only
  generalize body.filter (fun c => !Text.isWhitespace c) = stripped
  constructor
  · rintro ⟨base64, h, rfl⟩
    split_ifs at h with hlength hbase64
    cases h
    obtain ⟨digits, pad, rfl, hne, hdigits, hpad⟩ := isBase64Body_iff.mp hbase64
    rw [Bool.or_eq_true, not_or, decide_eq_true_eq, not_not] at hlength
    exact ⟨digits, pad, rfl, hne, hdigits, hpad, hlength.2, rfl⟩
  · rintro ⟨digits, pad, rfl, hne, hdigits, hpad, hlength, rfl⟩
    refine ⟨digits ++ pad, ?_, rfl⟩
    rw [if_neg, if_pos (isBase64Body_iff.mpr ⟨digits, pad, rfl, hne, hdigits, hpad⟩)]
    rw [Bool.or_eq_true, not_or, decide_eq_true_eq, not_not]
    exact ⟨by simp [hne], hlength⟩

lemma isBodyChar_of_isBase64Of (h : IsBase64Of body der) : ∀ c ∈ body, isBodyChar c = true := by
  obtain ⟨base64, hbase64, -⟩ := Option.map_eq_some_iff.mp (normaliseBase64_map_decode_iff.mpr h)
  exact fun c => isBodyChar_of_normaliseBase64 hbase64

/-- What is read of a text are the certificates of the blocks that are taken. -/
theorem mem_pemBlocks_iff :
    pem ∈ pemBlocks text ↔ ∃ der, StandingBlock text der ∧ pem = derToPem der := by
  have hdecoded : ∀ body,
      (normaliseBase64 body).map (fun base64 => derToPem (Base64.decode base64)) =
        ((normaliseBase64 body).map Base64.decode).map derToPem := fun body => by
    rw [Option.map_map]
    rfl
  unfold pemBlocks
  simp only [List.mem_filterMap, hdecoded, Option.map_eq_some_iff (f := derToPem),
    normaliseBase64_map_decode_iff, mem_certificateBodies_iff]
  constructor
  · rintro ⟨body, ⟨start, hat, -, hstands⟩, der, hder, rfl⟩
    exact ⟨der, ⟨start, body, hat, hder, hstands⟩, rfl⟩
  · rintro ⟨der, ⟨start, body, hat, hder, hstands⟩, rfl⟩
    exact ⟨body, ⟨start, hat, isBodyChar_of_isBase64Of hder, hstands⟩, der, hder, rfl⟩

/-- Where no block of a text begins inside another, none is lost. -/
lemma standingBlock_of_apart (h : ∀ start stop start' stop', BlockSpan text.toList start stop →
    BlockSpan text.toList start' stop' → start < start' → stop ≤ start')
    (hblock : PemBlock text der) : StandingBlock text der := by
  obtain ⟨start, body, hat, hder⟩ := hblock
  have hspan : BlockSpan text.toList start (start + (blockOf body).length) :=
    ⟨body, hat, isBodyChar_of_isBase64Of hder, rfl⟩
  refine ⟨start, body, hat, hder, ?_⟩
  rw [Stands]
  intro earlier stop hlt hearlier hinside
  have hle := h earlier stop start _ hearlier hspan hlt
  omega

end Blocks
end Portcall.Net
