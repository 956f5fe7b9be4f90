import Portcall.Library.Base64
import Portcall.Text

/-! PEM in, DER out and back again. -/
namespace Portcall.Net

def pemLineLength : ℕ := 64

/-- `-----BEGIN CERTIFICATE-----` -/
def beginCertificate : List Char :=
  ['-', '-', '-', '-', '-', 'B', 'E', 'G', 'I', 'N', ' ', 'C', 'E', 'R', 'T', 'I', 'F', 'I', 'C',
    'A', 'T', 'E', '-', '-', '-', '-', '-']

/-- `-----END CERTIFICATE-----` -/
def endCertificate : List Char :=
  ['-', '-', '-', '-', '-', 'E', 'N', 'D', ' ', 'C', 'E', 'R', 'T', 'I', 'F', 'I', 'C', 'A', 'T',
    'E', '-', '-', '-', '-', '-']

/-- `[A-Za-z0-9+/]` -/
def isBase64Digit (c : Char) : Bool := Text.isAlphanumeric c || c = '+' || c = '/'

/-- `[A-Za-z0-9+/=\s]`: what a block's body is made of. -/
def isBodyChar (c : Char) : Bool := isBase64Digit c || c = '=' || Text.isWhitespace c

/-- `/^[A-Za-z0-9+/]+={0,2}$/` -/
def isBase64Body (body : List Char) : Bool :=
  !(body.takeWhile isBase64Digit).isEmpty &&
    body.dropWhile isBase64Digit ∈ [[], ['='], ['=', '=']]

/-- Base64 with no whitespace and correct padding, if it is that. -/
def normaliseBase64 (text : List Char) : Option (List Char) :=
  let body := text.filter fun c => !Text.isWhitespace c
  if body.isEmpty || body.length % 4 ≠ 0 then none
  else if isBase64Body body then some body
  else none

/-- A text cut into lines of one length. -/
def pemLines (body : List Char) : List (List Char) :=
  if body.isEmpty then [] else body.take pemLineLength :: pemLines (body.drop pemLineLength)
termination_by body.length
decreasing_by
  rename_i h
  have hpositive := List.length_pos_iff.mpr (by simpa using h)
  rw [List.length_drop, pemLineLength]
  omega

/-- DER bytes as a certificate block, wrapped and newline-terminated. -/
def derToPem (der : List UInt8) : String :=
  String.ofList beginCertificate ++ "\n" ++
    Text.join "\n" ((pemLines (Base64.encode der)).map String.ofList) ++ "\n" ++
    String.ofList endCertificate ++ "\n"

/-- What follows a marker a text starts with. -/
def afterMarker (marker text : List Char) : Option (List Char) :=
  if marker.isPrefixOf text then some (text.drop marker.length) else none

/-- The block a text starts with: its body, and what follows it. No character of a body can start
the closing marker, so the body is all there is before it. -/
def certificateBlock (text : List Char) : Option (List Char × List Char) :=
  (afterMarker beginCertificate text).bind fun rest =>
    (afterMarker endCertificate (rest.dropWhile isBodyChar)).map fun after =>
      (rest.takeWhile isBodyChar, after)

lemma afterMarker_eq_some {marker text rest : List Char} :
    afterMarker marker text = some rest ↔ text = marker ++ rest := by
  unfold afterMarker
  constructor
  · intro h
    split_ifs at h with hstart
    cases h
    rw [List.isPrefixOf_iff_prefix] at hstart
    obtain ⟨rest, rfl⟩ := hstart
    rw [List.drop_left]
  · rintro rfl
    rw [if_pos (List.isPrefixOf_iff_prefix.mpr (List.prefix_append _ _)), List.drop_left]

lemma certificateBlock_eq_some {text body after : List Char}
    (h : certificateBlock text = some (body, after)) :
    text = beginCertificate ++ (body ++ (endCertificate ++ after)) ∧
      ∀ c ∈ body, isBodyChar c = true := by
  obtain ⟨rest, hrest, h⟩ := Option.bind_eq_some_iff.mp h
  obtain ⟨after', hafter, h⟩ := Option.map_eq_some_iff.mp h
  cases h
  rw [afterMarker_eq_some] at hrest hafter
  refine ⟨?_, fun c hc => List.all_eq_true.mp (List.all_takeWhile) c hc⟩
  rw [hrest, ← hafter, List.takeWhile_append_dropWhile]

/-- A block takes at least a character of the text it starts. -/
lemma certificateBlock_shrinks {c : Char} {rest body after : List Char}
    (h : certificateBlock (c :: rest) = some (body, after)) : after.length < rest.length + 1 := by
  have hlength := congrArg List.length (certificateBlock_eq_some h).1
  simp only [List.length_append, List.length_cons, beginCertificate] at hlength
  omega

/-- The bodies of the blocks of a text, in the order they appear; a block is consumed whole. -/
def certificateBodies : List Char → List (List Char)
  | [] => []
  | c :: rest =>
    match h : certificateBlock (c :: rest) with
    | some (body, after) =>
      have : after.length < rest.length + 1 := certificateBlock_shrinks h
      body :: certificateBodies after
    | none => certificateBodies rest
termination_by text => text.length

/-- Every certificate block of a text that is base64, rebuilt in one layout. -/
def pemBlocks (text : String) : List String :=
  (certificateBodies text.toList).filterMap fun body =>
    (normaliseBase64 body).map fun base64 => derToPem (Base64.decode base64)

section Blocks
variable {text body after : List Char}

/-- Only characters of a body survive in one that is base64. -/
lemma isBodyChar_of_normaliseBase64 {base64 : List Char} (h : normaliseBase64 body = some base64)
    {c : Char} (hc : c ∈ body) : isBodyChar c = true := by
  unfold normaliseBase64 at h
  dsimp only at h
  split_ifs at h with _ hbase64
  by_cases hspace : Text.isWhitespace c = true
  · simp [isBodyChar, hspace]
  · have hmem : c ∈ body.filter fun c => !Text.isWhitespace c :=
      List.mem_filter.mpr ⟨hc, by simpa using hspace⟩
    unfold isBase64Body at hbase64
    rw [Bool.and_eq_true, decide_eq_true_eq] at hbase64
    rw [← List.takeWhile_append_dropWhile (p := isBase64Digit)
      (l := body.filter fun c => !Text.isWhitespace c), List.mem_append] at hmem
    rcases hmem with hmem | hmem
    · simp [isBodyChar, List.all_eq_true.mp List.all_takeWhile c hmem]
    · have hpad : c = '=' := by
        have hrest := hbase64.2
        simp only [List.mem_cons, List.not_mem_nil, or_false] at hrest
        rcases hrest with hrest | hrest | hrest <;> rw [hrest] at hmem <;> simp at hmem <;>
          exact hmem
      simp [isBodyChar, hpad]

lemma certificateBlock_append (hbody : ∀ c ∈ body, isBodyChar c = true) :
    certificateBlock (beginCertificate ++ (body ++ (endCertificate ++ after))) =
      some (body, after) := by
  have hstop : isBodyChar '-' = false := by decide
  have htake : (body ++ (endCertificate ++ after)).takeWhile isBodyChar = body := by
    rw [List.takeWhile_append_of_pos hbody, endCertificate, List.cons_append, List.takeWhile_cons,
      hstop]
    simp
  have hdrop : (body ++ (endCertificate ++ after)).dropWhile isBodyChar =
      endCertificate ++ after := by
    rw [List.dropWhile_append_of_pos hbody, endCertificate, List.cons_append, List.dropWhile_cons,
      hstop]
    simp
  unfold certificateBlock
  rw [afterMarker_eq_some.mpr rfl, Option.bind_some, hdrop, htake, afterMarker_eq_some.mpr rfl]
  rfl

lemma certificateBodies_of_block (h : certificateBlock text = some (body, after)) :
    certificateBodies text = body :: certificateBodies after := by
  cases text with
  | nil => cases h
  | cons c rest =>
    rw [certificateBodies]
    split
    · rename_i hblock
      rw [h] at hblock
      cases hblock
      rfl
    · rename_i hblock
      rw [h] at hblock
      cases hblock

lemma certificateBodies_of_none {c : Char} (h : certificateBlock (c :: text) = none) :
    certificateBodies (c :: text) = certificateBodies text := by
  rw [certificateBodies]
  split
  · rename_i hblock
    rw [h] at hblock
    cases hblock
  · rfl

end Blocks

section Identity

/-- A text without its line breaks. -/
def unwrapped (text : List Char) : List Char := text.filter fun c => c ≠ '\n'

lemma unwrapped_append (left right : List Char) :
    unwrapped (left ++ right) = unwrapped left ++ unwrapped right := List.filter_append ..

lemma unwrapped_join (lines : List (List Char)) :
    unwrapped (Text.join "\n" (lines.map String.ofList)).toList = unwrapped lines.flatten := by
  induction lines with
  | nil => rfl
  | cons line lines ih =>
    cases lines with
    | nil => simp [Text.join]
    | cons next lines =>
      have hjoin : Text.join "\n" ((line :: next :: lines).map String.ofList) =
          String.ofList line ++ "\n" ++ Text.join "\n" ((next :: lines).map String.ofList) := rfl
      rw [hjoin, String.toList_append, String.toList_append, unwrapped_append, unwrapped_append,
        ih, List.flatten_cons, unwrapped_append, String.toList_ofList]
      simp [unwrapped]

lemma flatten_pemLines (body : List Char) : (pemLines body).flatten = body := by
  fun_induction pemLines body with
  | case1 body hempty =>
    rw [List.isEmpty_iff.mp hempty]
    rfl
  | case2 body _ ih => rw [List.flatten_cons, ih, List.take_append_drop]

/-- The layout loses nothing: one block, one certificate. -/
theorem derToPem_injective : Function.Injective derToPem := by
  intro left right h
  have hbody : ∀ der, unwrapped (derToPem der).toList =
      beginCertificate ++ (Base64.encode der ++ endCertificate) := by
    intro der
    have hencode : unwrapped (Base64.encode der) = Base64.encode der :=
      List.filter_eq_self.mpr fun c hc => by
        rcases Base64.mem_encode hc with rfl | ⟨n, hn, rfl⟩
        · decide
        · have hall : ∀ n < 64, Base64.digit n ≠ '\n' := by decide
          exact decide_eq_true (hall n hn)
    have hbegin : unwrapped beginCertificate = beginCertificate := by decide
    have hend : unwrapped endCertificate = endCertificate := by decide
    simp only [derToPem, String.toList_append, String.toList_ofList, unwrapped_append,
      unwrapped_join, flatten_pemLines, hencode, hbegin, hend]
    simp [unwrapped]
  have hchars := congrArg (fun text : String => unwrapped text.toList) h
  simp only [hbody, List.append_cancel_left_eq, List.append_cancel_right_eq] at hchars
  exact Base64.encode_injective hchars

end Identity
end Portcall.Net
