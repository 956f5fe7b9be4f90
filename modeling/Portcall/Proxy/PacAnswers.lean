import Portcall.Proxy.Pac

/-! What a script may answer, as a grammar, against the verdict that is read out of the answer. -/
namespace Portcall.Proxy

/-- A word is spelled in either case. -/
def SpellsWord (word spelled : List Char) : Prop := spelled.map Char.toUpper = word

def Blank (text : List Char) : Prop := ∀ c ∈ text, Text.isWhitespace c = true

/-- An entry that sends a request through a proxy, and the two texts it is read from. -/
inductive ProxyEntry : List Char → List Char → List Char → Prop
  | named {word spelled gap host port : List Char}
      (hword : word = ['P', 'R', 'O', 'X', 'Y'] ∨ word = ['H', 'T', 'T', 'P'])
      (hspelled : SpellsWord word spelled) (hgap : gap ≠ []) (hblank : Blank gap)
      (hhost : host ≠ []) (hchars : ∀ c ∈ host, isProxyHostChar c = true)
      (hport : port ≠ []) (hdigits : ∀ c ∈ port, Text.isDigit c = true) :
      ProxyEntry (spelled ++ (gap ++ (host ++ ':' :: port))) host port

/-- The first entry of a chain, without the blanks around it. -/
def FirstEntry (chain entry : List Char) : Prop :=
  ∃ lead trail rest, chain = lead ++ entry ++ trail ++ rest ∧ Blank lead ∧ Blank trail ∧
    ';' ∉ lead ++ entry ++ trail ∧ ∀ c ∈ rest.head?, c = ';'

section Entries
variable {word text rest entry host port : List Char}

lemma afterWord_eq_some_iff : afterWord word text = some rest ↔
    ∃ spelled, SpellsWord word spelled ∧ text = spelled ++ rest := by
  unfold afterWord SpellsWord
  constructor
  · intro h
    split_ifs at h with hprefixed
    cases h
    refine ⟨text.take word.length, ?_, (List.take_append_drop _ _).symm⟩
    rw [List.map_take]
    exact (List.prefix_iff_eq_take.mp (List.isPrefixOf_iff_prefix.mp hprefixed)).symm
  · rintro ⟨spelled, rfl, rfl⟩
    rw [if_pos, List.length_map, List.drop_left]
    rw [List.isPrefixOf_iff_prefix, List.map_append]
    exact List.prefix_append _ _

/-- No text begins with both words. -/
lemma afterWord_proxy_of_http {spelled : List Char} (h : SpellsWord ['H', 'T', 'T', 'P'] spelled) :
    afterWord ['P', 'R', 'O', 'X', 'Y'] (spelled ++ rest) = none := by
  rw [afterWord, List.map_append, h]
  rfl

lemma isWhitespace_of_isProxyHostChar {c : Char} (h : isProxyHostChar c = true) :
    Text.isWhitespace c = false := by
  simp only [isProxyHostChar, Bool.and_eq_true, Bool.not_eq_true'] at h
  exact h.1

/-- A head that is no blank stops the skipping of blanks. -/
lemma dropWhile_blank {lead inner : List Char} (hlead : Blank lead)
    (hinner : ∀ c ∈ inner.head?, Text.isWhitespace c = false) :
    (lead ++ inner).dropWhile Text.isWhitespace = inner := by
  rw [List.dropWhile_append_of_pos hlead]
  cases inner with
  | nil => rfl
  | cons c cs =>
    apply List.dropWhile_cons_of_neg
    rw [hinner c rfl]
    exact Bool.false_ne_true

theorem proxyEntry_iff : proxyEntry entry = some (host, port) ↔ ProxyEntry entry host port := by
  constructor
  · intro h
    obtain ⟨rest, hrest, h⟩ := Option.bind_eq_some_iff.mp h
    dsimp only at h
    split at h
    · rename_i hfound
      split_ifs at h with hshape
      cases h
      simp only [Bool.and_eq_true, Bool.not_eq_true', List.isEmpty_eq_false_iff,
        List.all_eq_true] at hshape
      obtain ⟨⟨⟨hgap, hhost⟩, hport⟩, hdigits⟩ := hshape
      have hword : ∃ word, (word = ['P', 'R', 'O', 'X', 'Y'] ∨ word = ['H', 'T', 'T', 'P']) ∧
          afterWord word entry = some rest := by
        cases hproxy : afterWord ['P', 'R', 'O', 'X', 'Y'] entry with
        | none => exact ⟨_, Or.inr rfl, by rwa [hproxy] at hrest⟩
        | some found => exact ⟨_, Or.inl rfl, by rwa [hproxy] at hrest ⊢⟩
      obtain ⟨word, hword, hafter⟩ := hword
      obtain ⟨spelled, hspelled, rfl⟩ := afterWord_eq_some_iff.mp hafter
      -- what the reader skipped, took and left is the rest of the entry
      have htext : rest = rest.takeWhile Text.isWhitespace ++
          ((rest.dropWhile Text.isWhitespace).takeWhile isProxyHostChar ++ ':' :: port) := by
        rw [← hfound, List.takeWhile_append_dropWhile, List.takeWhile_append_dropWhile]
      have hskipped : rest.takeWhile Text.isWhitespace ≠ [] := by
        cases rest with
        | nil => cases hgap
        | cons c cs =>
          rw [List.takeWhile_cons_of_pos (by simpa using hgap)]
          exact List.cons_ne_nil _ _
      have hentry := ProxyEntry.named hword hspelled hskipped (fun c => List.mem_takeWhile_imp)
        hhost (fun c => List.mem_takeWhile_imp) hport hdigits
      rwa [← htext] at hentry
    · cases h
  · rintro ⟨hword, hspelled, hgap, hblank, hhost, hchars, hport, hdigits⟩
    rename_i word spelled gap
    have hafter : ((afterWord ['P', 'R', 'O', 'X', 'Y']
        (spelled ++ (gap ++ (host ++ ':' :: port)))).orElse fun _ => afterWord ['H', 'T', 'T', 'P']
          (spelled ++ (gap ++ (host ++ ':' :: port)))) = some (gap ++ (host ++ ':' :: port)) := by
      have hfound : ∀ rest, afterWord word (spelled ++ rest) = some rest :=
        fun rest => afterWord_eq_some_iff.mpr ⟨spelled, hspelled, rfl⟩
      rcases hword with rfl | rfl
      · rw [hfound]
        rfl
      · rw [afterWord_proxy_of_http hspelled, hfound]
        rfl
    -- The host cannot begin with a blank, so that the whole gap is skipped and nothing else.
    have hskip : (gap ++ (host ++ ':' :: port)).dropWhile Text.isWhitespace =
        host ++ ':' :: port := by
      apply dropWhile_blank hblank
      intro c hc
      rw [List.head?_append_of_ne_nil _ hhost] at hc
      exact isWhitespace_of_isProxyHostChar (hchars c (List.mem_of_mem_head? hc))
    have hhead : (gap ++ (host ++ ':' :: port)).head?.any Text.isWhitespace = true := by
      obtain ⟨c, cs, rfl⟩ := List.exists_cons_of_ne_nil hgap
      exact hblank c List.mem_cons_self
    have hcolon : isProxyHostChar ':' = false := by decide
    rw [proxyEntry, hafter, Option.bind_some]
    dsimp only
    rw [hskip, hhead, List.dropWhile_append_of_pos hchars, List.takeWhile_append_of_pos hchars,
      List.dropWhile_cons_of_neg (by rw [hcolon]; exact Bool.false_ne_true),
      List.takeWhile_cons_of_neg (by rw [hcolon]; exact Bool.false_ne_true), List.append_nil]
    simp [hhost, hport, List.all_eq_true.mpr hdigits]

end Entries

section Verdicts
variable {chain entry : List Char}

lemma head_splitChars (chain : List Char) :
    (Text.splitChars ';' chain).headD [] = chain.takeWhile (· ≠ ';') := by
  induction chain with
  | nil => rfl
  | cons c rest ih =>
    rw [Text.splitChars]
    by_cases hc : c = ';'
    · rw [if_pos hc, List.takeWhile_cons_of_neg (by simpa using hc)]
      rfl
    · rw [if_neg hc, List.takeWhile_cons_of_pos (by simpa using hc), ← ih]
      cases Text.splitChars ';' rest <;> rfl

/-- An entry that begins and ends with no blank is the first one where it is what is left of the
chain once what follows a semicolon, and then the blanks around it, are gone. -/
lemma firstEntry_iff (hne : entry ≠ []) (hhead : ∀ c ∈ entry.head?, Text.isWhitespace c = false)
    (hlast : ∀ c ∈ entry.reverse.head?, Text.isWhitespace c = false) :
    FirstEntry chain entry ↔
      Text.trimChars ((Text.splitChars ';' chain).headD []) = entry := by
  rw [head_splitChars]
  constructor
  · rintro ⟨lead, trail, rest, rfl, hlead, htrail, hsemicolon, hrest⟩
    have hfirst : (lead ++ entry ++ trail ++ rest).takeWhile (· ≠ ';') = lead ++ entry ++ trail := by
      rw [List.takeWhile_append_of_pos fun c hc => by simpa using ne_of_mem_of_not_mem hc hsemicolon]
      cases rest with
      | nil => rw [List.takeWhile_nil, List.append_nil]
      | cons c rest =>
        rw [List.takeWhile_cons_of_neg (by simpa using hrest c rfl), List.append_nil]
    rw [hfirst, Text.trimChars, List.append_assoc, dropWhile_blank hlead, List.reverse_append,
      dropWhile_blank (fun c hc => htrail c (List.mem_reverse.mp hc)) hlast, List.reverse_reverse]
    rwa [List.head?_append_of_ne_nil _ hne]
  · intro h
    obtain ⟨lead, trail, hfirst, hlead, htrail⟩ :=
      Text.exists_trimChars (chain.takeWhile (· ≠ ';'))
    rw [h] at hfirst
    refine ⟨lead, trail, chain.dropWhile (· ≠ ';'), ?_, hlead, htrail, ?_, ?_⟩
    · rw [← hfirst, List.takeWhile_append_dropWhile]
    · rw [← hfirst]
      intro hm
      simpa using List.mem_takeWhile_imp hm
    · intro c hc
      have hstop := List.head?_dropWhile_not (· ≠ ';') chain
      rw [hc] at hstop
      simpa using hstop

lemma isWhitespace_of_toUpper {c : Char} (h : Text.isWhitespace c.toUpper = false) :
    Text.isWhitespace c = false := by
  by_contra hblank
  rw [Bool.not_eq_false] at hblank
  have hsame : c.toUpper = c := by
    unfold Char.toUpper
    rw [dif_neg]
    rintro ⟨hlow, hhigh⟩
    have hlow : 97 ≤ c.toNat := hlow
    have hhigh : c.toNat ≤ 122 := hhigh
    simp only [Text.isWhitespace, Bool.or_eq_true, Bool.and_eq_true, decide_eq_true_eq] at hblank
    omega
  rw [hsame, hblank] at h
  cases h

lemma isWhitespace_of_spells {word spelled : List Char} (h : SpellsWord word spelled)
    (hword : word.any Text.isWhitespace = false) :
    ∀ c ∈ spelled, Text.isWhitespace c = false := by
  intro c hm
  have hmem : c.toUpper ∈ word := h ▸ List.mem_map_of_mem hm
  apply isWhitespace_of_toUpper
  simpa using List.any_eq_false.mp hword _ hmem

lemma firstEntry_direct (h : SpellsWord ['D', 'I', 'R', 'E', 'C', 'T'] entry) :
    FirstEntry chain entry ↔
      Text.trimChars ((Text.splitChars ';' chain).headD []) = entry := by
  have hblank := isWhitespace_of_spells h (by decide)
  apply firstEntry_iff
  · rintro rfl
    cases h
  · exact fun c hc => hblank c (List.mem_of_mem_head? hc)
  · exact fun c hc => hblank c (List.mem_reverse.mp (List.mem_of_mem_head? hc))

lemma firstEntry_proxy {host port : List Char} (h : ProxyEntry entry host port) :
    FirstEntry chain entry ↔
      Text.trimChars ((Text.splitChars ';' chain).headD []) = entry := by
  obtain ⟨hword, hspelled, -, -, -, -, hport, hdigits⟩ := h
  rename_i word spelled gap
  have hletters : ∀ c ∈ spelled, Text.isWhitespace c = false := by
    apply isWhitespace_of_spells hspelled
    rcases hword with rfl | rfl <;> decide
  have hne : spelled ≠ [] := by
    rintro rfl
    rcases hword with rfl | rfl <;> cases hspelled
  apply firstEntry_iff
  · exact List.append_ne_nil_of_left_ne_nil hne _
  · intro c hc
    rw [List.head?_append_of_ne_nil _ hne] at hc
    exact hletters c (List.mem_of_mem_head? hc)
  · intro c hc
    have hc' : c ∈ port.reverse.head? := by
      rw [List.reverse_append, List.reverse_append, List.reverse_append, List.reverse_cons,
        List.append_assoc, List.append_assoc, List.append_assoc,
        List.head?_append_of_ne_nil _ (List.reverse_ne_nil_iff.mpr hport)] at hc
      exact hc
    have hdigit := hdigits c (List.mem_reverse.mp (List.mem_of_mem_head? hc'))
    by_contra hblank
    rw [Text.isDigit_eq_false_of_isWhitespace (Bool.not_eq_false _ ▸ hblank)] at hdigit
    cases hdigit

lemma ProxyEntry.not_direct {host port : List Char} (h : ProxyEntry entry host port) :
    entry.map Char.toUpper ≠ ['D', 'I', 'R', 'E', 'C', 'T'] := by
  obtain ⟨-, -, -, -, -, -, -, -⟩ := h
  intro hdirect
  have hcolon : Char.toUpper ':' ∈ ['D', 'I', 'R', 'E', 'C', 'T'] := by
    rw [← hdirect]
    exact List.mem_map_of_mem (by simp)
  exact absurd hcolon (by decide)

lemma parseVerdict_some_iff (raw : String) :
    (parseVerdict (some raw) = .direct ↔
      ∃ entry, FirstEntry raw.toList entry ∧ SpellsWord ['D', 'I', 'R', 'E', 'C', 'T'] entry) ∧
    (∀ via : HostPort, parseVerdict (some raw) = .proxy via ↔
      ∃ entry port, FirstEntry raw.toList entry ∧ ProxyEntry entry via.host.toList port ∧
        0 < via.port ∧ via.port ≤ 65535 ∧ Text.decimal port = via.port) ∧
    parseVerdict (some raw) ≠ .error := by
  rw [parseVerdict]
  dsimp only
  generalize hfirst : Text.trimChars ((Text.splitChars ';' raw.toList).headD []) = first
  by_cases hdirect : first.map Char.toUpper = ['D', 'I', 'R', 'E', 'C', 'T']
  · rw [if_pos hdirect]
    refine ⟨iff_of_true rfl ⟨first, (firstEntry_direct hdirect).mpr hfirst, hdirect⟩, ?_, by simp⟩
    refine fun via => iff_of_false (by simp) ?_
    rintro ⟨entry, port, hentry, hproxy, -⟩
    rw [firstEntry_proxy hproxy, hfirst] at hentry
    exact hproxy.not_direct (hentry ▸ hdirect)
  · rw [if_neg hdirect]
    refine ⟨iff_of_false ?_ ?_, fun via => ⟨fun h => ?_, ?_⟩, ?_⟩
    · split
      · simp
      · split_ifs <;> simp
    · rintro ⟨entry, hentry, hspelled⟩
      rw [firstEntry_direct hspelled, hfirst] at hentry
      exact hdirect (hentry ▸ hspelled)
    · split at h
      · cases h
      · rename_i host port hentry
        split_ifs at h with hrange
        cases h
        rw [Bool.and_eq_true, decide_eq_true_eq, decide_eq_true_eq] at hrange
        have hproxy := proxyEntry_iff.mp hentry
        refine ⟨first, port, (firstEntry_proxy hproxy).mpr hfirst, ?_, hrange.1, hrange.2, rfl⟩
        rwa [String.toList_ofList]
    · rintro ⟨entry, port, hentry, hproxy, hpositive, hrange, hport⟩
      rw [firstEntry_proxy hproxy, hfirst] at hentry
      rw [hentry, proxyEntry_iff.mpr hproxy]
      dsimp only
      rw [hport, if_pos (by simpa using ⟨hpositive, hrange⟩), String.ofList_toList]
    · split
      · simp
      · split_ifs <;> simp

/-- A script is understood where the first entry of the text it answers is `DIRECT` or names a proxy
on a port there is, and then it is understood as that; no answer, not even one that is no text, is
an error. -/
theorem parseVerdict_iff (answer : Option String) :
    (parseVerdict answer = .direct ↔ ∃ raw entry, answer = some raw ∧
      FirstEntry raw.toList entry ∧ SpellsWord ['D', 'I', 'R', 'E', 'C', 'T'] entry) ∧
    (∀ via : HostPort, parseVerdict answer = .proxy via ↔
      ∃ raw entry port, answer = some raw ∧ FirstEntry raw.toList entry ∧
        ProxyEntry entry via.host.toList port ∧ 0 < via.port ∧ via.port ≤ 65535 ∧
        Text.decimal port = via.port) ∧
    parseVerdict answer ≠ .error := by
  cases answer with
  | none => simp [parseVerdict]
  | some raw =>
    obtain ⟨hdirect, hproxy, herror⟩ := parseVerdict_some_iff raw
    refine ⟨hdirect.trans ?_, fun via => (hproxy via).trans ?_, herror⟩
    · simp only [Option.some.injEq, exists_and_left, exists_eq_left']
    · simp only [Option.some.injEq, exists_and_left, exists_eq_left']

end Verdicts
end Portcall.Proxy
