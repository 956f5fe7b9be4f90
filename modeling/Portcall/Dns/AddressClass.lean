import Portcall.Dns.AddressGrammar

/-! What an address is, is read off its 128-bit value: the blocks that are sinkholes, the blocks
that are private, and every spelling of a value in the class of that value. -/
namespace Portcall.Dns
open InternetAddress

/-- The block of the addresses whose first two octets, up to `bits`, are these. -/
def v4Block (a b bits : ℕ) : Block := ⟨mapped (a * 2 ^ 24 + b * 2 ^ 16), 96 + bits⟩

/-- 0/8, 127/8, :: and ::1 -/
def sinkholeBlocks : List Block := [v4Block 0 0 8, v4Block 127 0 8, ⟨0, 128⟩, ⟨1, 128⟩]

/-- 10/8, 172.16/12, 192.168/16, 169.254/16, 100.64/10, fc00::/7 and fe80::/10 -/
def privateBlocks : List Block :=
  [v4Block 10 0 8, v4Block 172 16 12, v4Block 192 168 16, v4Block 169 254 16, v4Block 100 64 10,
    ⟨0xfc00 * 2 ^ 112, 7⟩, ⟨0xfe80 * 2 ^ 112, 10⟩]

section Ipv4
variable {address : Ipv4}

lemma classifyIpv4_eq_sinkhole_iff :
    classifyIpv4 address = .sinkhole ↔ address.a = 0 ∨ address.a = 127 := by
  simp only [classifyIpv4, Bool.or_eq_true, Bool.and_eq_true, decide_eq_true_eq]
  split_ifs <;> simp only [true_iff, false_iff] <;> omega

lemma classifyIpv4_eq_private_iff :
    classifyIpv4 address = .private ↔ address.a = 10 ∨
      (address.a = 172 ∧ 16 ≤ address.b ∧ address.b ≤ 31) ∨
      (address.a = 192 ∧ address.b = 168) ∨ (address.a = 169 ∧ address.b = 254) ∨
      (address.a = 100 ∧ 64 ≤ address.b ∧ address.b ≤ 127) := by
  simp only [classifyIpv4, Bool.or_eq_true, Bool.and_eq_true, decide_eq_true_eq]
  split_ifs <;> simp only [true_iff, false_iff] <;> omega

lemma two_pow_split {bits : ℕ} (hbits : bits ≤ 32) : 2 ^ 32 = 2 ^ (32 - bits) * 2 ^ bits := by
  rw [← Nat.pow_add]
  congr 1
  omega

lemma classifyIpv4_ne_malformed : classifyIpv4 address ≠ .malformed := by
  simp only [classifyIpv4]
  split_ifs <;> decide

/-- A block of such addresses holds the value of one exactly when the block of their 32 bits does. -/
lemma v4Block_holds_iff {a b bits value : ℕ} (hbits : bits ≤ 32) :
    (v4Block a b bits).Holds (mapped value) ↔
      value / 2 ^ (32 - bits) = (a * 2 ^ 24 + b * 2 ^ 16) / 2 ^ (32 - bits) := by
  have hexponent : 128 - (96 + bits) = 32 - bits := by omega
  have hdiv : ∀ n, mapped n / 2 ^ (32 - bits) = 0xffff * 2 ^ bits + n / 2 ^ (32 - bits) := by
    intro n
    have hpos : 0 < 2 ^ (32 - bits) := by positivity
    rw [mapped, two_pow_split hbits, Nat.mul_left_comm, Nat.mul_add_div hpos]
  rw [Block.Holds, v4Block, hexponent, hdiv, hdiv, Nat.add_left_cancel_iff]

lemma mapped_lt {value : ℕ} (h : value < 2 ^ 32) :
    0xffff * 2 ^ 32 ≤ mapped value ∧ mapped value < 2 ^ 48 := by
  rw [mapped]
  omega

lemma Ipv4.Octets.value_lt (h : address.Octets) : address.value < 2 ^ 32 := by
  obtain ⟨ha, hb, hc, hd⟩ := h
  rw [Ipv4.value]
  omega

/-- The sinkhole blocks of 32 bits are those of the two first octets. -/
theorem sinkhole_mapped_iff (h : address.Octets) :
    (∃ block ∈ sinkholeBlocks, block.Holds (mapped address.value)) ↔
      address.a = 0 ∨ address.a = 127 := by
  have hlow := (mapped_lt h.value_lt).1
  obtain ⟨ha, hb, hc, hd⟩ := h
  have hzero : ¬(⟨0, 128⟩ : Block).Holds (mapped address.value) := by
    simp only [Block.Holds]
    omega
  have hone : ¬(⟨1, 128⟩ : Block).Holds (mapped address.value) := by
    simp only [Block.Holds]
    omega
  simp only [sinkholeBlocks, List.mem_cons, List.not_mem_nil, or_false, exists_eq_or_imp,
    exists_eq_left, hzero, hone]
  rw [v4Block_holds_iff (by decide), v4Block_holds_iff (by decide), Ipv4.value]
  omega

/-- So are the private ones. -/
theorem private_mapped_iff (h : address.Octets) :
    (∃ block ∈ privateBlocks, block.Holds (mapped address.value)) ↔ address.a = 10 ∨
      (address.a = 172 ∧ 16 ≤ address.b ∧ address.b ≤ 31) ∨
      (address.a = 192 ∧ address.b = 168) ∨ (address.a = 169 ∧ address.b = 254) ∨
      (address.a = 100 ∧ 64 ≤ address.b ∧ address.b ≤ 127) := by
  have hhigh := (mapped_lt h.value_lt).2
  obtain ⟨ha, hb, hc, hd⟩ := h
  have hlocal : ¬(⟨0xfc00 * 2 ^ 112, 7⟩ : Block).Holds (mapped address.value) := by
    simp only [Block.Holds]
    omega
  have hlink : ¬(⟨0xfe80 * 2 ^ 112, 10⟩ : Block).Holds (mapped address.value) := by
    simp only [Block.Holds]
    omega
  have hten : (v4Block 10 0 8).Holds (mapped address.value) ↔ address.a = 10 := by
    rw [v4Block_holds_iff (by decide), Ipv4.value]
    omega
  have htwelve : (v4Block 172 16 12).Holds (mapped address.value) ↔
      address.a = 172 ∧ 16 ≤ address.b ∧ address.b ≤ 31 := by
    rw [v4Block_holds_iff (by decide), Ipv4.value]
    omega
  have hsixteen : (v4Block 192 168 16).Holds (mapped address.value) ↔
      address.a = 192 ∧ address.b = 168 := by
    rw [v4Block_holds_iff (by decide), Ipv4.value]
    omega
  have hlinkLocal : (v4Block 169 254 16).Holds (mapped address.value) ↔
      address.a = 169 ∧ address.b = 254 := by
    rw [v4Block_holds_iff (by decide), Ipv4.value]
    omega
  have hcarrier : (v4Block 100 64 10).Holds (mapped address.value) ↔
      address.a = 100 ∧ 64 ≤ address.b ∧ address.b ≤ 127 := by
    rw [v4Block_holds_iff (by decide), Ipv4.value]
    omega
  simp only [privateBlocks, List.mem_cons, List.not_mem_nil, or_false, exists_eq_or_imp,
    exists_eq_left, hlocal, hlink, hten, htwelve, hsixteen, hlinkLocal, hcarrier]

/-- A dotted quad, or a text mapped to one, is classified by the blocks of its value. -/
theorem classifyIpv4_spec (h : address.Octets) :
    (classifyIpv4 address = .sinkhole ↔
        ∃ block ∈ sinkholeBlocks, block.Holds (mapped address.value)) ∧
      (classifyIpv4 address = .private ↔
        ∃ block ∈ privateBlocks, block.Holds (mapped address.value)) :=
  ⟨classifyIpv4_eq_sinkhole_iff.trans (sinkhole_mapped_iff h).symm,
    classifyIpv4_eq_private_iff.trans (private_mapped_iff h).symm⟩

end Ipv4

section Ipv6
variable {groups : List ℕ} {n shift bits : ℕ}

/-- Masking a number to its high bits is reading what is left of it without the low ones. -/
lemma mask_iff (h : n < 2 ^ (bits + shift)) (m : ℕ) :
    n &&& ((2 ^ bits - 1) <<< shift) = m <<< shift ↔ n / 2 ^ shift = m := by
  have hland : n &&& ((2 ^ bits - 1) <<< shift) = ((n >>> shift) &&& (2 ^ bits - 1)) <<< shift := by
    refine Nat.eq_of_testBit_eq fun i => ?_
    simp only [Nat.testBit_and, Nat.testBit_shiftLeft, Nat.testBit_shiftRight]
    by_cases hi : shift ≤ i
    · simp [hi, Nat.add_sub_cancel' hi]
    · simp [hi]
  have hhigh : n >>> shift < 2 ^ bits := by
    rw [Nat.shiftRight_eq_div_pow]
    exact Nat.div_lt_of_lt_mul (by rwa [← Nat.pow_add, Nat.add_comm])
  have hpos : 0 < 2 ^ shift := by positivity
  rw [hland, Nat.and_two_pow_sub_one_eq_mod, Nat.mod_eq_of_lt hhigh, Nat.shiftLeft_eq,
    Nat.shiftLeft_eq, Nat.mul_left_inj hpos.ne', Nat.shiftRight_eq_div_pow]

/-- Eight groups are their number, from the first down. -/
private lemma groupsValue_eight (a b c d e f g h : ℕ) :
    groupsValue [a, b, c, d, e, f, g, h] = a * 2 ^ 112 + b * 2 ^ 96 + c * 2 ^ 80 + d * 2 ^ 64 +
      e * 2 ^ 48 + f * 2 ^ 32 + g * 2 ^ 16 + h := by
  simp only [groupsValue, List.reverse_cons, List.reverse_nil, List.nil_append, List.cons_append,
    Nat.ofDigits_cons, Nat.ofDigits_nil]
  omega

/-- The eight groups of an address, each of sixteen bits. -/
def Groups (groups : List ℕ) : Prop := groups.length = 8 ∧ ∀ group ∈ groups, group < 65536

lemma Groups.exists_eight (h : Groups groups) :
    ∃ a b c d e f g i, groups = [a, b, c, d, e, f, g, i] ∧ a < 65536 ∧ b < 65536 ∧ c < 65536 ∧
      d < 65536 ∧ e < 65536 ∧ f < 65536 ∧ g < 65536 ∧ i < 65536 := by
  obtain ⟨hlength, hlt⟩ := h
  match groups, hlength with
  | [a, b, c, d, e, f, g, i], _ =>
    simp only [List.forall_mem_cons, List.not_mem_nil, false_implies, implies_true, and_true] at hlt
    exact ⟨a, b, c, d, e, f, g, i, rfl, hlt⟩

/-- Eight groups are told by their number. -/
lemma Groups.eq_of_value_eq {groups' : List ℕ} (h : Groups groups) (h' : Groups groups')
    (hvalue : groupsValue groups = groupsValue groups') : groups = groups' := by
  have hlength : groups.reverse.length = groups'.reverse.length := by
    rw [List.length_reverse, List.length_reverse, h.1, h'.1]
  have hreverse := Nat.ofDigits_inj_of_len_eq (by decide : 1 < 65536) hlength
    (fun group hm => h.2 group (List.mem_reverse.mp hm))
    (fun group hm => h'.2 group (List.mem_reverse.mp hm)) hvalue
  exact List.reverse_inj.mp hreverse

lemma Groups.value_eq_last_iff (h : Groups groups) {last : ℕ} (hlast : last < 65536) :
    groupsValue groups = last ↔ groups = [0, 0, 0, 0, 0, 0, 0, last] := by
  have hvalue : groupsValue [0, 0, 0, 0, 0, 0, 0, last] = last := by
    rw [groupsValue_eight]
    omega
  have hgroups : Groups [0, 0, 0, 0, 0, 0, 0, last] := by
    refine ⟨rfl, ?_⟩
    simpa using hlast
  constructor
  · intro hlow
    exact h.eq_of_value_eq hgroups (hlow.trans hvalue.symm)
  · rintro rfl
    exact hvalue

lemma classifyIpv6_eq_sinkhole_iff (h : Groups groups) :
    classifyIpv6 groups = .sinkhole ↔ groupsValue groups = 0 ∨ groupsValue groups = 1 := by
  rw [h.value_eq_last_iff (by decide), h.value_eq_last_iff (by decide)]
  obtain ⟨a, b, c, d, e, f, g, i, rfl, -⟩ := h.exists_eight
  simp only [classifyIpv6, List.all_cons, List.all_nil, List.getLast?_cons_cons,
    List.getLast?_singleton, List.dropLast_cons_cons, List.dropLast_singleton, Bool.and_true,
    Bool.and_eq_true, decide_eq_true_eq, Option.some.injEq, List.cons.injEq, and_true]
  split_ifs with hzero hone
  · exact iff_of_true rfl (Or.inl hzero)
  · exact iff_of_true rfl (Or.inr (by omega))
  all_goals exact iff_of_false (by decide) (by omega)

lemma classifyIpv6_eq_private_iff (h : Groups groups) :
    classifyIpv6 groups = .private ↔
      groupsValue groups / 2 ^ 121 = 126 ∨ groupsValue groups / 2 ^ 118 = 1018 := by
  obtain ⟨a, b, c, d, e, f, g, i, rfl, ha, hb, hc, hd, he, hf, hg, hi⟩ := h.exists_eight
  have hlocal : a &&& 0xfe00 = 0xfc00 ↔ a / 512 = 126 :=
    @mask_iff a 9 7 ha 126
  have hlink : a &&& 0xffc0 = 0xfe80 ↔ a / 64 = 1018 :=
    @mask_iff a 6 10 ha 1018
  rw [groupsValue_eight]
  simp only [classifyIpv6, List.all_cons, List.all_nil, List.getLast?_cons_cons,
    List.getLast?_singleton, List.dropLast_cons_cons, List.dropLast_singleton, Bool.and_true,
    Bool.and_eq_true, decide_eq_true_eq, Option.some.injEq, List.headD_cons, hlocal, hlink]
  split_ifs <;> simp only [true_iff, false_iff] <;> omega

/-- The groups of a mapped address. -/
def mappedGroups (address : Ipv4) : List ℕ :=
  [0, 0, 0, 0, 0, 0xffff, address.a * 256 + address.b, address.c * 256 + address.d]

lemma groups_mappedGroups {address : Ipv4} (h : address.Octets) :
    Groups (mappedGroups address) ∧ groupsValue (mappedGroups address) = mapped address.value := by
  obtain ⟨ha, hb, hc, hd⟩ := h
  refine ⟨⟨rfl, ?_⟩, ?_⟩
  · simp only [mappedGroups, List.forall_mem_cons, List.not_mem_nil, false_implies, implies_true,
      and_true]
    omega
  · rw [mappedGroups, groupsValue_eight, mapped, Ipv4.value]
    omega

lemma groups_of_mappedIpv4 (h : Groups groups) {address : Ipv4}
    (hmapped : mappedIpv4 groups = some address) :
    address.Octets ∧ groups = mappedGroups address := by
  unfold mappedIpv4 at hmapped
  split at hmapped
  · rename_i seventh eighth
    cases hmapped
    have hseventh : seventh < 65536 := h.2 _ (by simp)
    have heighth : eighth < 65536 := h.2 _ (by simp)
    refine ⟨?_, ?_⟩
    · simp only [Ipv4.Octets]
      omega
    · rw [mappedGroups, Nat.div_add_mod', Nat.div_add_mod']
  · cases hmapped

lemma mappedIpv4_mappedGroups {address : Ipv4} (h : address.Octets) :
    mappedIpv4 (mappedGroups address) = some address := by
  have hsplit : ∀ high low : ℕ, low ≤ 255 →
      (high * 256 + low) / 256 = high ∧ (high * 256 + low) % 256 = low := by
    intro high low hlow
    omega
  obtain ⟨-, hb, -, hd⟩ := h
  rw [mappedGroups, mappedIpv4, (hsplit _ _ hb).1, (hsplit _ _ hb).2, (hsplit _ _ hd).1,
    (hsplit _ _ hd).2]

/-- An address is unwrapped exactly where its value is that of a mapped one. -/
lemma mappedIpv4_eq_some_iff (h : Groups groups) (address : Ipv4) :
    mappedIpv4 groups = some address ↔
      address.Octets ∧ groupsValue groups = mapped address.value := by
  constructor
  · intro hmapped
    obtain ⟨hoctets, rfl⟩ := groups_of_mappedIpv4 h hmapped
    exact ⟨hoctets, (groups_mappedGroups hoctets).2⟩
  · rintro ⟨hoctets, hvalue⟩
    obtain ⟨hgroups, hmapped⟩ := groups_mappedGroups hoctets
    rw [h.eq_of_value_eq hgroups (hvalue.trans hmapped.symm), mappedIpv4_mappedGroups hoctets]

/-- A value in one of the blocks of 32 bits is a mapped one. -/
lemma div_of_holds_v4Block {a b value : ℕ} (hbits : bits ≤ 32) (ha : a < 256) (hb : b < 256)
    (h : (v4Block a b bits).Holds value) : value / 2 ^ 32 = 0xffff := by
  have hexponent : 128 - (96 + bits) = 32 - bits := by omega
  have hpow := two_pow_split hbits
  rw [Block.Holds, v4Block, hexponent] at h
  rw [hpow, ← Nat.div_div_eq_div_mul, h, Nat.div_div_eq_div_mul, ← hpow]
  change mapped (a * 2 ^ 24 + b * 2 ^ 16) / 2 ^ 32 = 0xffff
  rw [mapped]
  omega

lemma exists_octets {value : ℕ} (h : value / 2 ^ 32 = 0xffff) :
    ∃ address : Ipv4, address.Octets ∧ value = mapped address.value := by
  refine ⟨⟨value / 2 ^ 24 % 256, value / 2 ^ 16 % 256, value / 2 ^ 8 % 256, value % 256⟩, ?_, ?_⟩
  · simp only [Ipv4.Octets]
    omega
  · simp only [mapped, Ipv4.value]
    omega

/-- An address that is not unwrapped is classified by the blocks of its value as well. -/
theorem classifyIpv6_spec (h : Groups groups) (hnone : mappedIpv4 groups = none) :
    (classifyIpv6 groups = .sinkhole ↔
        ∃ block ∈ sinkholeBlocks, block.Holds (groupsValue groups)) ∧
      (classifyIpv6 groups = .private ↔
        ∃ block ∈ privateBlocks, block.Holds (groupsValue groups)) := by
  have hunmapped : ¬groupsValue groups / 2 ^ 32 = 0xffff := by
    intro hvalue
    obtain ⟨address, hoctets, hmapped⟩ := exists_octets hvalue
    have hsome := (mappedIpv4_eq_some_iff h address).mpr ⟨hoctets, hmapped⟩
    rw [hnone] at hsome
    cases hsome
  have hblock : ∀ a b bits, bits ≤ 32 → a < 256 → b < 256 →
      ¬(v4Block a b bits).Holds (groupsValue groups) :=
    fun _ _ _ hbits ha hb hholds => hunmapped (div_of_holds_v4Block hbits ha hb hholds)
  rw [classifyIpv6_eq_sinkhole_iff h, classifyIpv6_eq_private_iff h]
  constructor
  · simp (disch := decide) only [sinkholeBlocks, List.mem_cons, List.not_mem_nil, or_false,
      exists_eq_or_imp, exists_eq_left, hblock, false_or]
    simp [Block.Holds]
  · simp (disch := decide) only [privateBlocks, List.mem_cons, List.not_mem_nil, or_false,
      exists_eq_or_imp, exists_eq_left, hblock, false_or]
    simp [Block.Holds]

end Ipv6

section Address
variable {address : String} {value : ℕ}

/-- The blocks of a value decide its class. -/
def InBlocksOf (addressClass : AddressClass) (value : ℕ) : Prop :=
  (addressClass = .sinkhole ↔ ∃ block ∈ sinkholeBlocks, block.Holds value) ∧
    (addressClass = .private ↔ ∃ block ∈ privateBlocks, block.Holds value)

lemma classifyAddress_of_dottedQuad (h : DottedQuad address.toList value) :
    classifyAddress address ≠ .malformed ∧
      InBlocksOf (classifyAddress address) (mapped value) := by
  obtain ⟨v4, hparse, rfl⟩ := dottedQuad_iff.mp h
  rw [classifyAddress, hparse]
  exact ⟨classifyIpv4_ne_malformed, classifyIpv4_spec (parseIpv4_eq_some_iff.mp hparse).1⟩

lemma classifyAddress_of_ipv6Text {groups : List ℕ} (h : Ipv6Text address.toList groups) :
    classifyAddress address ≠ .malformed ∧
      InBlocksOf (classifyAddress address) (groupsValue groups) := by
  have hv4 : parseIpv4 address.toList = none := by
    rw [Option.eq_none_iff_forall_ne_some]
    intro v4 hparse
    exact (dottedQuad_iff.mpr ⟨v4, hparse, rfl⟩).colon_not_mem h.colon_mem
  rw [classifyAddress, hv4]
  simp only [parseIpv6_eq_some_iff.mpr h]
  cases hmapped : mappedIpv4 groups with
  | none =>
    refine ⟨?_, classifyIpv6_spec h.shape hmapped⟩
    simp only [classifyIpv6]
    split_ifs <;> decide
  | some v4 =>
    obtain ⟨hoctets, hvalue⟩ := (mappedIpv4_eq_some_iff h.shape v4).mp hmapped
    exact ⟨classifyIpv4_ne_malformed, hvalue ▸ classifyIpv4_spec hoctets⟩

lemma classifyAddress_of_spells (h : Spells address.toList value) :
    classifyAddress address ≠ .malformed ∧ InBlocksOf (classifyAddress address) value := by
  generalize htext : address.toList = text at h
  cases h with
  | quad h => exact classifyAddress_of_dottedQuad (htext ▸ h)
  | groups h => exact classifyAddress_of_ipv6Text (htext ▸ h)

lemma spells_of_classifyAddress (h : classifyAddress address ≠ .malformed) :
    (∃ value, DottedQuad address.toList value) ∨ ∃ groups, Ipv6Text address.toList groups := by
  rw [classifyAddress] at h
  cases hv4 : parseIpv4 address.toList with
  | some v4 => exact Or.inl ⟨_, dottedQuad_iff.mpr ⟨v4, hv4, rfl⟩⟩
  | none =>
    rw [hv4] at h
    cases hv6 : parseIpv6 address.toList with
    | some groups => exact Or.inr ⟨groups, parseIpv6_eq_some_iff.mp hv6⟩
    | none =>
      rw [hv6] at h
      exact absurd rfl h

/-- Two classes read off the same blocks are one class. -/
lemma InBlocksOf.unique {left right : AddressClass} (hl : InBlocksOf left value)
    (hr : InBlocksOf right value) (hml : left ≠ .malformed) (hmr : right ≠ .malformed) :
    left = right := by
  have hsinkhole := hl.1.trans hr.1.symm
  have hprivate := hl.2.trans hr.2.symm
  cases left <;> cases right <;> simp_all

end Address

/-- The class of an address is that of its value: a text that spells a value is in the class of
the blocks that hold it, whatever the spelling, and a text that spells none is malformed. -/
theorem classifyAddress_spec (address : String) :
    (classifyAddress address ≠ .malformed ↔
        (∃ value, DottedQuad address.toList value) ∨ ∃ groups, Ipv6Text address.toList groups) ∧
      ∀ value, Spells address.toList value →
        (classifyAddress address = .sinkhole ↔ ∃ block ∈ sinkholeBlocks, block.Holds value) ∧
        (classifyAddress address = .private ↔ ∃ block ∈ privateBlocks, block.Holds value) ∧
        ∀ other : String, Spells other.toList value →
          classifyAddress other = classifyAddress address := by
  refine ⟨⟨spells_of_classifyAddress, ?_⟩, fun value h => ?_⟩
  · rintro (⟨value, h⟩ | ⟨groups, h⟩)
    · exact (classifyAddress_of_dottedQuad h).1
    · exact (classifyAddress_of_ipv6Text h).1
  · obtain ⟨hwell, hblocks⟩ := classifyAddress_of_spells h
    refine ⟨hblocks.1, hblocks.2, fun other hother => ?_⟩
    obtain ⟨howell, hoblocks⟩ := classifyAddress_of_spells hother
    exact hoblocks.unique hblocks howell hwell

/-- A private address and one of its mapped spellings. -/
theorem classifyAddress_spec_mapped :
    classifyAddress "::FFFF:0a00:0001" = .private ∧
      classifyAddress "10.0.0.1" = classifyAddress "::FFFF:0a00:0001" := by
  have hgroups : Spells "::FFFF:0a00:0001".toList (mapped (10 * 2 ^ 24 + 1)) :=
    .groups (parseIpv6_eq_some_iff.mp
      (by decide : parseIpv6 _ = some [0, 0, 0, 0, 0, 0xffff, 0x0a00, 1]))
  have hquad : Spells "10.0.0.1".toList (mapped (10 * 2 ^ 24 + 1)) :=
    .quad (dottedQuad_iff.mpr ⟨⟨10, 0, 0, 1⟩, by decide, rfl⟩)
  obtain ⟨-, hprivate, hsame⟩ := (classifyAddress_spec "::FFFF:0a00:0001").2 _ hgroups
  exact ⟨hprivate.mpr ⟨v4Block 10 0 8, by decide, by decide⟩, hsame "10.0.0.1" hquad⟩

end Portcall.Dns
