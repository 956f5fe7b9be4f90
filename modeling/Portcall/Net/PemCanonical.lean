import Portcall.Net.PemScan
import Portcall.Net.StoreChild

/-! One certificate, one text: in whatever layout a certificate is printed, it is read back as the
same block. Blocks of other types are passed over, except where such a block and what stands next to
it spell a certificate block across their markers. -/
namespace Portcall.Net
open Fence

/-- A part of a text: the place of a certificate, or a complete block of another type. -/
inductive Part where
  | certificate
  | other (label body : List Char)
  deriving DecidableEq, Repr

/-- A block of another type, with nothing in it that is a run of five dashes. -/
def Part.WellFormed : Part → Prop
  | .certificate => True
  | .other label body => label ≠ certificateLabel ∧ '-' ∉ label.getLast? ∧ Quiet '-' 5 label ∧
    Quiet '-' 5 body

/-- How certificates are set in a text: what comes first, and the parts with what follows each. -/
structure Layout where
  start : List Char
  parts : List (Part × List Char)
  quiet_start : Quiet '-' 5 start
  wellFormed : ∀ part ∈ parts, part.1.WellFormed ∧ Quiet '-' 5 part.2

/-- The base64 of a certificate with white space put in anywhere. -/
def Spells (body : List Char) (der : List UInt8) : Prop :=
  body.filter (fun c => !Text.isWhitespace c) = Base64.encode der

/-- The stretches of a text in which the places hold these certificates, in order. -/
inductive Fills : List (Part × List Char) → List (List UInt8) → List (List Char) → Prop
  | nil : Fills [] [] []
  | certificate {der body after parts ders stretches} : der ≠ [] → Spells body der →
      Fills parts ders stretches → Fills ((.certificate, after) :: parts) (der :: ders)
        (opening certificateLabel :: body :: closing certificateLabel :: after :: stretches)
  | other {label body after parts ders stretches} : Fills parts ders stretches →
      Fills ((.other label body, after) :: parts) ders
        (opening label :: body :: closing label :: after :: stretches)

/-- The text renders the certificates in the layout. -/
def Layout.Renders (layout : Layout) (ders : List (List UInt8)) (text : String) : Prop :=
  ∃ stretches, Fills layout.parts ders stretches ∧
    text.toList = layout.start ++ fenced '-' 5 stretches

/-- One unwrapped line of base64 for each certificate. -/
inductive Lined : List (List UInt8) → List Char → Prop
  | nil : Lined [] []
  | last (der : List UInt8) : Lined [der] (Base64.encode der)
  | cons {der ders ending text} : ending ∈ [['\n'], ['\r', '\n']] → Lined ders text →
      Lined (der :: ders) (Base64.encode der ++ (ending ++ text))

/-- The certificates come out of the text in their one form, and come out of that form and of the
other output format alike. -/
structure Canonical (ders : List (List UInt8)) (text : String) : Prop where
  blocks : pemBlocks text = ders.map derToPem
  again : pemBlocks (Text.join "" (pemBlocks text)) = pemBlocks text
  formats : ∀ lines : String, Lined ders lines.toList →
    parseStdout .base64DerLines lines = parseStdout .pemStream text

/-- Base64 with correct padding, once the white space is taken out. -/
def isBase64 (text : List Char) : Bool :=
  let body := text.filter fun c => !Text.isWhitespace c
  body.length % 4 = 0 && isBase64Body body

/-- A text and the part after it spell a certificate block that ends in the part. -/
def spansInto (after : List Char) : Part → Bool
  | .certificate => false
  | .other label body =>
    isBegin after && isBody (opening label) && isEnd body && isBase64 (opening label)

/-- A block of another type and what is next to it spell a certificate block: its body opens one,
its closing marker is base64 or the text after it takes the dashes of a certificate; or the text
after it opens one that ends in the next block. -/
def captured : Part × List Char → Part × List Char → Bool
  | (.certificate, _), _ => false
  | (.other label body, after), (next, _) =>
    (isBegin body && isBody (closing label) && isEnd after &&
      (next = .certificate || isBase64 (closing label))) || spansInto after next

/-- The certificate a body is the base64 of. -/
def decoded (body : List Char) : Option (List UInt8) := (normaliseBase64 body).map Base64.decode

/-- The certificates that are found in a text of these stretches. -/
def certificatesIn (stretches : List (List Char)) : List (List UInt8) :=
  (scanStretches stretches).filterMap decoded

section Bodies
variable {body text label : List Char} {der : List UInt8}

lemma normaliseBase64_isSome (text : List Char) :
    (normaliseBase64 text).isSome = isBase64 text := by
  unfold normaliseBase64 isBase64
  dsimp only
  generalize (text.filter fun c => !Text.isWhitespace c) = body
  split_ifs with hshape hbase64
  · rcases (Bool.or_eq_true _ _).mp hshape with hempty | hlength
    · rw [List.isEmpty_iff.mp hempty]
      rfl
    · rw [decide_eq_false (of_decide_eq_true hlength), Bool.false_and]
      rfl
  · rw [Bool.or_eq_true, not_or, decide_eq_true_eq, not_not] at hshape
    rw [hshape.2, hbase64]
    rfl
  · simp [hbase64]

lemma decoded_eq_none (h : isBase64 body = false) : decoded body = none := by
  rw [← normaliseBase64_isSome, Option.isSome_eq_false_iff, Option.isNone_iff_eq_none] at h
  rw [decoded, h, Option.map_none]

lemma normaliseBase64_of_spells (hne : der ≠ []) (h : Spells body der) :
    normaliseBase64 body = some (Base64.encode der) := by
  obtain ⟨digits, pad, hencode, hdigits, hmem, hpad⟩ := Base64.exists_encode der
  have hdigit : ∀ c ∈ digits, isBase64Digit c = true := by
    intro c hc
    obtain ⟨n, hn, rfl⟩ := hmem c hc
    have hall : ∀ n < 64, isBase64Digit (Base64.digit n) = true := by decide
    exact hall n hn
  have hstop : pad.takeWhile isBase64Digit = [] ∧ pad.dropWhile isBase64Digit = pad := by
    simp only [List.mem_cons, List.not_mem_nil, or_false] at hpad
    rcases hpad with rfl | rfl | rfl <;> exact ⟨by decide, by decide⟩
  have hbody : isBase64Body (Base64.encode der) = true := by
    unfold isBase64Body
    rw [hencode, List.takeWhile_append_of_pos hdigit, List.dropWhile_append_of_pos hdigit, hstop.1,
      hstop.2, List.append_nil]
    simp only [Bool.and_eq_true, decide_eq_true_eq]
    exact ⟨by simpa using hdigits hne, hpad⟩
  have hempty : (Base64.encode der).isEmpty = false := by
    rw [hencode]
    simpa using fun hnil => absurd hnil (hdigits hne)
  unfold normaliseBase64
  dsimp only
  rw [show (body.filter fun c => !Text.isWhitespace c) = Base64.encode der from h, hbody, hempty,
    Base64.length_encode_mod]
  rfl

lemma decoded_of_spells (hne : der ≠ []) (h : Spells body der) : decoded body = some der := by
  rw [decoded, normaliseBase64_of_spells hne h, Option.map_some, Base64.decode_encode]

lemma isBody_of_spells (hne : der ≠ []) (h : Spells body der) : isBody body = true :=
  List.all_eq_true.mpr fun _ => isBodyChar_of_normaliseBase64 (normaliseBase64_of_spells hne h)

/-- The letters of a closing marker are no complete quanta. -/
lemma not_isEnd_of_spells (hne : der ≠ []) (h : Spells body der) : isEnd body = false := by
  rw [Bool.eq_false_iff]
  intro hend
  obtain ⟨m, rfl⟩ := isEnd_iff.mp hend
  cases m with
  | zero =>
    have hlength := Base64.length_encode_mod der
    rw [← h] at hlength
    revert hlength
    decide
  | succ m =>
    refine not_mem_of_isBody (isBody_of_spells hne h) ?_
    simp [List.replicate_succ]

lemma filter_of_normaliseBase64 {base64 : List Char} (h : normaliseBase64 text = some base64) :
    text.filter (fun c => !Text.isWhitespace c) = base64 ∧ base64.length % 4 = 0 := by
  unfold normaliseBase64 at h
  dsimp only at h
  split_ifs at h with hshape
  cases h
  refine ⟨rfl, ?_⟩
  simp only [Bool.or_eq_true, decide_eq_true_eq, not_or, not_not] at hshape
  exact hshape.2

/-- What is decoded from the opening marker of a block begins with letters of the marker. -/
lemma head?_decoded_opening (h : der ∈ decoded (opening label)) : der.head? = some 4 := by
  obtain ⟨base64, hbase64, rfl⟩ := Option.map_eq_some_iff.mp h
  rw [← (filter_of_normaliseBase64 hbase64).1]
  exact Base64.head?_decode ..

/-- What is decoded from the closing marker of a block begins with letters of the marker. -/
lemma head?_decoded_closing (h : der ∈ decoded (closing label)) : der.head? = some 16 := by
  obtain ⟨base64, hbase64, rfl⟩ := Option.map_eq_some_iff.mp h
  obtain ⟨hfilter, hlength⟩ := filter_of_normaliseBase64 hbase64
  have hclosing : (closing label).filter (fun c => !Text.isWhitespace c) =
      'E' :: 'N' :: 'D' :: label.filter fun c => !Text.isWhitespace c := rfl
  rw [hclosing] at hfilter
  cases hletters : label.filter fun c => !Text.isWhitespace c with
  | nil =>
    rw [← hfilter, hletters] at hlength
    cases hlength
  | cons c letters =>
    rw [← hfilter, hletters]
    exact Base64.head?_decode ..

end Bodies

section Stretches
variable {first body last after label label' : List Char} {rest : List (List Char)}

lemma scanStretches_of_not_begin (h : isBegin first = false) :
    scanStretches (first :: rest) = scanStretches rest := by
  match rest with
  | [] | [_] | [_, _] => simp [scanStretches]
  | body :: last :: after :: rest => simp [scanStretches, h]

lemma certificatesIn_of_not_begin (h : isBegin first = false) :
    certificatesIn (first :: rest) = certificatesIn rest := by
  rw [certificatesIn, scanStretches_of_not_begin h, certificatesIn]

lemma certificatesIn_window : certificatesIn (first :: body :: last :: after :: rest) =
    if isBegin first && isBody body && isEnd last then
      (decoded body).toList ++ certificatesIn rest
    else certificatesIn (body :: last :: after :: rest) := by
  rw [certificatesIn, scanStretches]
  split_ifs
  · rw [List.filterMap_cons]
    cases decoded body <;> rfl
  · rfl

/-- The scan at the body of a block of another type. -/
lemma certificatesIn_body :
    certificatesIn (body :: closing label :: after :: opening label' :: rest) =
      if isBegin body && isBody (closing label) && isEnd after then
        (decoded (closing label)).toList ++ certificatesIn rest
      else certificatesIn (after :: opening label' :: rest) := by
  rw [certificatesIn_window, certificatesIn_of_not_begin (not_isBegin_closing label)]

lemma certificatesIn_block {der : List UInt8} (hne : der ≠ []) (h : Spells body der) :
    certificatesIn (opening certificateLabel :: body :: closing certificateLabel :: after :: rest) =
      der :: certificatesIn rest := by
  rw [certificatesIn_window, isBody_of_spells hne h, decoded_of_spells hne h]
  rfl

/-- A text before a certificate is passed over. -/
lemma certificatesIn_before {der : List UInt8} (hne : der ≠ []) (h : Spells body der) :
    certificatesIn (first :: opening certificateLabel :: body :: rest) =
      certificatesIn (opening certificateLabel :: body :: rest) := by
  cases rest with
  | nil => simp [certificatesIn, scanStretches]
  | cons last rest => rw [certificatesIn_window, not_isEnd_of_spells hne h, Bool.and_false]; rfl

lemma captured_eq_false {next : Part × List Char}
    (h : captured (.other label body, after) next = false) :
    (isBegin body && isBody (closing label) && isEnd after →
      next.1 ≠ .certificate ∧ isBase64 (closing label) = false) ∧
      spansInto after next.1 = false := by
  obtain ⟨hswallow, hspans⟩ := Bool.or_eq_false_iff.mp h
  refine ⟨fun hwindow => ?_, hspans⟩
  rw [hwindow, Bool.true_and, Bool.or_eq_false_iff, decide_eq_false_iff_not] at hswallow
  exact hswallow

end Stretches

section Fills
variable {parts : List (Part × List Char)} {ders : List (List UInt8)}
  {stretches : List (List Char)}

/-- A text is cut into stretches where its dashes are, whatever stands before it. -/
def CutAtDashes (stretches : List (List Char)) : Prop :=
  (∀ stretch ∈ stretches, Quiet '-' 5 stretch) ∧ ∀ first, (first :: stretches).IsChain (Apart '-')

lemma apart_of_marker {marker label next : List Char} (hlabel : '-' ∉ label.getLast?)
    (hmarker : '-' ∉ marker) : Apart '-' (marker ++ label) next := by
  refine .inl fun hm => ?_
  rw [List.getLast?_append, Option.mem_def, Option.or_eq_some_iff] at hm
  rcases hm with hm | ⟨-, hm⟩
  · exact hlabel hm
  · exact hmarker (List.mem_of_getLast? hm)

/-- A marker stands between any two stretches that may touch its dashes. -/
lemma CutAtDashes.block {label body after : List Char} (hlast : '-' ∉ label.getLast?)
    (hlabel : Quiet '-' 5 label) (hbody : Quiet '-' 5 body) (hafter : Quiet '-' 5 after)
    (h : CutAtDashes stretches) :
    CutAtDashes (opening label :: body :: closing label :: after :: stretches) := by
  have hopening : ∀ first, Apart '-' first (opening label) := fun _ => .inr (by simp [opening])
  have hclosing : ∀ first, Apart '-' first (closing label) := fun _ => .inr (by simp [closing])
  obtain ⟨hquiet, hapart⟩ := h
  refine ⟨?_, fun first => ?_⟩
  · simp only [List.forall_mem_cons]
    exact ⟨hlabel.append_of_free (by decide) (by decide), hbody,
      hlabel.append_of_free (by decide) (by decide), hafter, hquiet⟩
  · simp only [List.isChain_cons_cons]
    exact ⟨hopening first, apart_of_marker hlast (by decide), hclosing body,
      apart_of_marker hlast (by decide), hapart after⟩

lemma Fills.cutAtDashes (h : Fills parts ders stretches)
    (hparts : ∀ part ∈ parts, part.1.WellFormed ∧ Quiet '-' 5 part.2) : CutAtDashes stretches := by
  induction h with
  | nil => exact ⟨by simp, fun first => List.isChain_singleton first⟩
  | certificate hne hbody _ ih =>
    obtain ⟨⟨-, hafter⟩, hrest⟩ := List.forall_mem_cons.mp hparts
    exact CutAtDashes.block (by decide) (Quiet.of_free (by decide) (by decide))
      (Quiet.of_free (by decide) (not_mem_of_isBody (isBody_of_spells hne hbody))) hafter (ih hrest)
  | other _ ih =>
    obtain ⟨⟨⟨-, hlast, hlabel, hbody⟩, hafter⟩, hrest⟩ := List.forall_mem_cons.mp hparts
    exact CutAtDashes.block hlast hlabel hbody hafter (ih hrest)

/-- What is read from a rendering is read from its stretches. -/
lemma Layout.pemBlocks_eq (layout : Layout) {text : String}
    (h : Fills layout.parts ders stretches)
    (htext : text.toList = layout.start ++ fenced '-' 5 stretches) :
    pemBlocks text = (certificatesIn stretches).map derToPem := by
  obtain ⟨hquiet, hapart⟩ := h.cutAtDashes layout.wellFormed
  rw [pemBlocks, htext, certificateBodies_quiet layout.quiet_start,
    certificateBodies_fenced hquiet (hapart []).tail, certificatesIn, List.map_filterMap]
  congr 1
  funext body
  rw [decoded, Option.map_map]
  rfl

/-- Without a capture, the certificates of a rendering are read. The scan is in one of three
places: before a part, at the text after one, or at the body of a block of another type. -/
lemma Fills.certificatesIn_eq (h : Fills parts ders stretches)
    (hparts : ∀ part ∈ parts, part.1.WellFormed ∧ Quiet '-' 5 part.2)
    (hfree : parts.IsChain fun part next => captured part next = false) :
    certificatesIn stretches = ders ∧
      (∀ after, (∀ next ∈ parts.head?, spansInto after next.1 = false) →
        certificatesIn (after :: stretches) = ders) ∧
      ∀ label body after,
        (∀ next ∈ parts.head?, captured (.other label body, after) next = false) →
          certificatesIn (body :: closing label :: after :: stretches) = ders := by
  induction h with
  | nil => simp [certificatesIn, scanStretches]
  | @certificate der body after parts ders stretches hne hbody _ ih =>
    obtain ⟨hread, -, -⟩ := ih (List.forall_mem_cons.mp hparts).2 hfree.tail
    have hblock : certificatesIn (opening certificateLabel :: body :: closing certificateLabel ::
        after :: stretches) = der :: ders := by rw [certificatesIn_block hne hbody, hread]
    refine ⟨hblock, fun after _ => by rw [certificatesIn_before hne hbody, hblock],
      fun label body after hnext => ?_⟩
    have hwindow : ¬(isBegin body && isBody (closing label) && isEnd after) := fun hwindow =>
      ((captured_eq_false (hnext _ rfl)).1 hwindow).1 rfl
    rw [certificatesIn_body, if_neg hwindow, certificatesIn_before hne hbody, hblock]
  | @other label body after parts ders stretches _ ih =>
    obtain ⟨hnext, hrest⟩ := List.isChain_cons.mp hfree
    obtain ⟨hpart, hparts⟩ := List.forall_mem_cons.mp hparts
    obtain ⟨hread, htext, hother⟩ := ih hparts hrest
    have hblock : certificatesIn (opening label :: body :: closing label :: after :: stretches) =
        ders := by
      rw [certificatesIn_of_not_begin (Bool.eq_false_iff.mpr (isBegin_opening.not.mpr hpart.1.1))]
      exact hother label body after hnext
    have hbefore : ∀ before, spansInto before (.other label body) = false →
        certificatesIn (before :: opening label :: body :: closing label :: after :: stretches) =
          ders := by
      intro before hspans
      rw [certificatesIn_window]
      split_ifs with hwindow
      · rw [spansInto, hwindow, Bool.true_and] at hspans
        rw [decoded_eq_none hspans]
        exact htext after fun next hm => (captured_eq_false (hnext next hm)).2
      · exact hblock
    refine ⟨hblock, fun before hspans => hbefore before (hspans _ rfl),
      fun label' body' before hcaptured => ?_⟩
    obtain ⟨hswallow, hspans⟩ := captured_eq_false (hcaptured _ rfl)
    rw [certificatesIn_body]
    split_ifs with hwindow
    · rw [decoded_eq_none (hswallow hwindow).2]
      exact hother label body after hnext
    · exact hbefore before hspans

/-- Every layout can be filled, with one certificate throughout. -/
lemma exists_fills (parts : List (Part × List Char)) : ∃ ders stretches,
    Fills parts ders stretches ∧ ∀ der ∈ ders, der = [0] := by
  induction parts with
  | nil => exact ⟨[], [], .nil, by simp⟩
  | cons part parts ih =>
    obtain ⟨ders, stretches, hfills, hders⟩ := ih
    obtain ⟨_ | ⟨label, body⟩, after⟩ := part
    · have hspells : Spells ['A', 'A', '=', '='] [0] := by
        unfold Spells
        decide
      exact ⟨_, _, .certificate (List.cons_ne_nil _ _) hspells hfills,
        List.forall_mem_cons.mpr ⟨rfl, hders⟩⟩
    · exact ⟨_, _, .other hfills, hders⟩

/-- The base64 of that certificate opens no block. -/
lemma not_isBegin_of_spells {body : List Char} (h : Spells body [0]) : isBegin body = false := by
  have hne : ([0] : List UInt8) ≠ [] := List.cons_ne_nil _ _
  rw [Bool.eq_false_iff]
  intro hbegin
  obtain ⟨m, rfl⟩ := isBegin_iff.mp hbegin
  cases m with
  | zero =>
    have hhead := head?_decoded_opening (Option.mem_def.mpr (decoded_of_spells hne h))
    revert hhead
    decide
  | succ m =>
    refine not_mem_of_isBody (isBody_of_spells hne h) ?_
    simp [List.replicate_succ]

/-- The certificate is never read from a marker of another block. -/
lemma not_mem_decoded_marker {body label : List Char}
    (h : body = opening label ∨ body = closing label) : [0] ∉ decoded body := by
  intro hm
  rcases h with rfl | rfl
  · have hhead := head?_decoded_opening hm
    revert hhead
    decide
  · have hhead := head?_decoded_closing hm
    revert hhead
    decide

lemma count_decoded_marker {body label : List Char}
    (h : body = opening label ∨ body = closing label) (rest : List (List UInt8)) :
    ((decoded body).toList ++ rest).count [0] = rest.count [0] := by
  rw [List.count_append, List.count_eq_zero.mpr, Nat.zero_add]
  rw [Option.mem_toList]
  exact not_mem_decoded_marker h

/-- Where nothing but the certificate is read, a marker is not base64. -/
lemma not_isBase64_of_eq {body label : List Char} {rest : List (List UInt8)}
    (h : body = opening label ∨ body = closing label) (hders : ∀ der ∈ ders, der = [0])
    (heq : (decoded body).toList ++ rest = ders) : isBase64 body = false ∧ rest = ders := by
  cases hdecoded : decoded body with
  | none =>
    rw [hdecoded] at heq
    refine ⟨?_, heq⟩
    rw [← normaliseBase64_isSome, Option.map_eq_none_iff.mp hdecoded]
    rfl
  | some der =>
    rw [hdecoded] at heq
    obtain rfl := hders der (by simp [← heq])
    exact absurd hdecoded (not_mem_decoded_marker h)

/-- Captures never add the certificate. -/
lemma Fills.count_le (h : Fills parts ders stretches)
    (hparts : ∀ part ∈ parts, part.1.WellFormed ∧ Quiet '-' 5 part.2)
    (hders : ∀ der ∈ ders, der = [0]) :
    (certificatesIn stretches).count [0] ≤ ders.length ∧
      (∀ after, (certificatesIn (after :: stretches)).count [0] ≤ ders.length) ∧
      ∀ label body after,
        (certificatesIn (body :: closing label :: after :: stretches)).count [0] ≤ ders.length := by
  induction h with
  | nil => simp [certificatesIn, scanStretches]
  | @certificate der body after parts ders stretches hne hbody _ ih =>
    obtain ⟨rfl, htail⟩ := List.forall_mem_cons.mp hders
    obtain ⟨hread, htext, -⟩ := ih (List.forall_mem_cons.mp hparts).2 htail
    have hblock : (certificatesIn (opening certificateLabel :: body :: closing certificateLabel ::
        after :: stretches)).count [0] ≤ ders.length + 1 := by
      rw [certificatesIn_block hne hbody, List.count_cons_self]
      omega
    refine ⟨hblock, fun before => by rw [certificatesIn_before hne hbody]; exact hblock,
      fun label body' before => ?_⟩
    rw [certificatesIn_body]
    split_ifs
    · rw [count_decoded_marker (.inr rfl),
        certificatesIn_of_not_begin (not_isBegin_of_spells hbody),
        certificatesIn_of_not_begin (not_isBegin_closing _)]
      exact (htext after).trans (Nat.le_succ _)
    · rw [certificatesIn_before hne hbody]
      exact hblock
  | @other label body after parts ders stretches _ ih =>
    obtain ⟨hpart, hparts⟩ := List.forall_mem_cons.mp hparts
    obtain ⟨-, htext, hother⟩ := ih hparts hders
    have hblock : (certificatesIn (opening label :: body :: closing label :: after ::
        stretches)).count [0] ≤ ders.length := by
      rw [certificatesIn_of_not_begin (Bool.eq_false_iff.mpr (isBegin_opening.not.mpr hpart.1.1))]
      exact hother label body after
    have hbefore : ∀ before, (certificatesIn (before :: opening label :: body :: closing label ::
        after :: stretches)).count [0] ≤ ders.length := by
      intro before
      rw [certificatesIn_window]
      split_ifs
      · rw [count_decoded_marker (.inl rfl)]
        exact htext after
      · exact hblock
    refine ⟨hblock, hbefore, fun label' body' before => ?_⟩
    rw [certificatesIn_body]
    split_ifs
    · rw [count_decoded_marker (.inr rfl)]
      exact hother label body after
    · exact hbefore before

/-- If the one certificate is read from a rendering as often as it stands there, nothing is
captured. -/
lemma Fills.uncaptured_of_eq (h : Fills parts ders stretches)
    (hparts : ∀ part ∈ parts, part.1.WellFormed ∧ Quiet '-' 5 part.2)
    (hders : ∀ der ∈ ders, der = [0]) :
    (certificatesIn stretches = ders → parts.IsChain fun part next => captured part next = false) ∧
      (∀ after, certificatesIn (after :: stretches) = ders →
        (parts.IsChain fun part next => captured part next = false) ∧
          ∀ next ∈ parts.head?, spansInto after next.1 = false) ∧
      ∀ label body after, certificatesIn (body :: closing label :: after :: stretches) = ders →
        (parts.IsChain fun part next => captured part next = false) ∧
          ∀ next ∈ parts.head?, captured (.other label body, after) next = false := by
  induction h with
  | nil => simp
  | @certificate der body after parts ders stretches hne hbody hrest ih =>
    obtain ⟨rfl, htail⟩ := List.forall_mem_cons.mp hders
    obtain ⟨hpart, hparts⟩ := List.forall_mem_cons.mp hparts
    have hblock : certificatesIn (opening certificateLabel :: body :: closing certificateLabel ::
        after :: stretches) = [0] :: ders →
        ((.certificate, after) :: parts).IsChain fun part next => captured part next = false := by
      intro heq
      rw [certificatesIn_block hne hbody] at heq
      exact List.isChain_cons.mpr ⟨fun _ _ => rfl, (ih hparts htail).1 (List.cons.inj heq).2⟩
    refine ⟨hblock, fun before heq => ?_, fun label body' before heq => ?_⟩
    · rw [certificatesIn_before hne hbody] at heq
      exact ⟨hblock heq, by simp [spansInto]⟩
    · rw [certificatesIn_body] at heq
      split_ifs at heq with hwindow
      · -- the block that was read in place of the certificate leaves one too few
        obtain ⟨-, heq⟩ := not_isBase64_of_eq (.inr rfl) hders heq
        rw [certificatesIn_of_not_begin (not_isBegin_of_spells hbody),
          certificatesIn_of_not_begin (not_isBegin_closing _)] at heq
        have hcount := (hrest.count_le hparts htail).2.1 after
        rw [heq, List.count_cons_self, List.count_eq_length.mpr fun der hm => (htail der hm).symm]
          at hcount
        omega
      · rw [certificatesIn_before hne hbody] at heq
        refine ⟨hblock heq, ?_⟩
        simp only [List.head?_cons, Option.mem_some, forall_eq']
        rw [captured, Bool.eq_false_iff.mpr hwindow]
        rfl
  | @other label body after parts ders stretches _ ih =>
    obtain ⟨hpart, hparts⟩ := List.forall_mem_cons.mp hparts
    obtain ⟨-, htext, hother⟩ := ih hparts hders
    have hbegin : isBegin (opening label) = false :=
      Bool.eq_false_iff.mpr (isBegin_opening.not.mpr hpart.1.1)
    have hblock : certificatesIn (opening label :: body :: closing label :: after :: stretches) =
        ders → ((.other label body, after) :: parts).IsChain fun part next =>
          captured part next = false := by
      intro heq
      rw [certificatesIn_of_not_begin hbegin] at heq
      obtain ⟨hrest, hnext⟩ := hother label body after heq
      exact List.isChain_cons.mpr ⟨hnext, hrest⟩
    have hbefore : ∀ before, certificatesIn (before :: opening label :: body :: closing label ::
        after :: stretches) = ders → (((.other label body, after) :: parts).IsChain
          fun part next => captured part next = false) ∧
            spansInto before (.other label body) = false := by
      intro before heq
      rw [certificatesIn_window] at heq
      split_ifs at heq with hwindow
      · obtain ⟨hbase64, heq⟩ := not_isBase64_of_eq (.inl rfl) hders heq
        obtain ⟨hrest, hnext⟩ := htext after heq
        have hend : isBegin body = false :=
          not_isBegin_of_isEnd ((Bool.and_eq_true _ _).mp hwindow).2
        refine ⟨List.isChain_cons.mpr ⟨fun next hm => ?_, hrest⟩, ?_⟩
        · simp only [captured, hend, Bool.false_and, Bool.false_or]
          exact hnext next hm
        · rw [spansInto, hbase64, Bool.and_false]
      · refine ⟨hblock heq, ?_⟩
        rw [spansInto, Bool.eq_false_iff.mpr hwindow, Bool.false_and]
    refine ⟨hblock, fun before heq => ?_, fun label' body' before heq => ?_⟩
    · simpa using hbefore before heq
    · simp only [List.head?_cons, Option.mem_some, forall_eq']
      rw [certificatesIn_body] at heq
      split_ifs at heq with hwindow
      · obtain ⟨hbase64, heq⟩ := not_isBase64_of_eq (.inr rfl) hders heq
        obtain ⟨hrest, hnext⟩ := hother label body after heq
        have hbegin' : isBegin before = false :=
          not_isBegin_of_isEnd ((Bool.and_eq_true _ _).mp hwindow).2
        refine ⟨List.isChain_cons.mpr ⟨hnext, hrest⟩, ?_⟩
        simp [captured, spansInto, hbase64, hbegin']
      · obtain ⟨hchain, hspans⟩ := hbefore before heq
        refine ⟨hchain, ?_⟩
        rw [captured, Bool.eq_false_iff.mpr hwindow, hspans]
        rfl

end Fills

section Forms
variable {ders : List (List UInt8)} {lines : List Char} {body : List Char} {der : List UInt8}

lemma encode_filter (der : List UInt8) :
    (Base64.encode der).filter (fun c => !Text.isWhitespace c) = Base64.encode der := by
  refine List.filter_eq_self.mpr fun c hc => ?_
  rcases Base64.mem_encode hc with rfl | ⟨n, hn, rfl⟩
  · decide
  · have hall : ∀ n < 64, (!Text.isWhitespace (Base64.digit n)) = true := by decide
    exact hall n hn

lemma not_mem_encode {c : Char} (hc : Text.isWhitespace c = true) : c ∉ Base64.encode der := by
  rw [← encode_filter, List.mem_filter]
  simp [hc]

/-- The stretches of a block in the one form. -/
def blockStretches (der : List UInt8) : List (List Char) :=
  [opening certificateLabel,
    '\n' :: (Text.join "\n" ((pemLines (Base64.encode der)).map String.ofList)).toList ++ ['\n'],
    closing certificateLabel, ['\n']]

lemma toList_derToPem (der : List UInt8) :
    (derToPem der).toList = fenced '-' 5 (blockStretches der) := by
  simp only [derToPem, String.toList_append, String.toList_ofList, blockStretches, fenced_cons,
    fenced_nil, beginCertificate_eq, endCertificate_eq, fence, List.append_assoc, List.append_nil,
    List.cons_append]
  rfl

lemma fills_blocks (hne : ∀ der ∈ ders, der ≠ []) :
    Fills (ders.map fun _ => (.certificate, ['\n'])) ders (ders.flatMap blockStretches) := by
  induction ders with
  | nil => exact .nil
  | cons der ders ih =>
    obtain ⟨hder, hrest⟩ := List.forall_mem_cons.mp hne
    refine .certificate hder ?_ (ih hrest)
    have hspace : ∀ text : List Char, (unwrapped text).filter (fun c => !Text.isWhitespace c) =
        text.filter fun c => !Text.isWhitespace c := by
      intro text
      rw [unwrapped, List.filter_filter]
      refine List.filter_congr fun c _ => ?_
      by_cases hc : c = '\n'
      · rw [hc]
        decide
      · simp [hc]
    unfold Spells
    rw [List.filter_append, List.filter_cons_of_neg (by decide), ← hspace, unwrapped_join,
      flatten_pemLines, hspace, encode_filter]
    simp
    decide

/-- The layout of blocks in the one form. -/
def plainLayout (ders : List (List UInt8)) : Layout where
  start := []
  parts := ders.map fun _ => (.certificate, ['\n'])
  quiet_start := Quiet.of_free (by decide) (by decide)
  wellFormed := by
    intro part hm
    obtain ⟨_, -, rfl⟩ := List.mem_map.mp hm
    exact ⟨trivial, Quiet.of_free (by decide) (by decide)⟩

lemma toList_join_derToPem (ders : List (List UInt8)) :
    (Text.join "" (ders.map derToPem)).toList = fenced '-' 5 (ders.flatMap blockStretches) := by
  rw [Text.toList_join_empty]
  induction ders with
  | nil => rfl
  | cons der ders ih =>
    rw [List.map_cons, List.flatMap_cons, ih, toList_derToPem, List.flatMap_cons]
    exact List.flatMap_append.symm

/-- What was read is read again as it is. -/
lemma pemBlocks_join (hne : ∀ der ∈ ders, der ≠ []) :
    pemBlocks (Text.join "" (ders.map derToPem)) = ders.map derToPem := by
  have hfills := fills_blocks hne
  have hfree : (ders.map fun _ => (Part.certificate, ['\n'])).IsChain
      fun part next => captured part next = false :=
    (List.pairwise_map.mpr (List.pairwise_of_forall fun _ _ => rfl)).isChain
  rw [(plainLayout ders).pemBlocks_eq hfills (toList_join_derToPem ders),
    (hfills.certificatesIn_eq (plainLayout ders).wellFormed hfree).1]

lemma splitLines_cons {line rest : List Char} (h : '\n' ∉ line) :
    splitLines (line ++ '\n' :: rest) = withoutReturn line :: splitLines rest := by
  have hne := Text.splitChars_ne_nil '\n' rest
  unfold splitLines
  rw [Text.splitChars_append_cons h]
  dsimp only
  rw [List.dropLast_cons_of_ne_nil hne, List.map_cons, List.cons_append,
    List.getLast?_cons_of_ne_nil hne]

/-- The lines are read as the certificates they hold, whichever way they end. -/
lemma filterMap_splitLines (hne : ∀ der ∈ ders, der ≠ []) (h : Lined ders lines) :
    (splitLines lines).filterMap decoded = ders := by
  have hreturn : ∀ der, withoutReturn (Base64.encode der) = Base64.encode der := fun der =>
    if_neg fun hlast => not_mem_encode (by decide) (List.mem_of_getLast? hlast)
  induction h with
  | nil => rfl
  | last der =>
    unfold splitLines
    rw [Text.splitChars_eq_singleton (not_mem_encode (by decide))]
    simp [decoded_of_spells (hne der List.mem_cons_self) (encode_filter der)]
  | @cons der ders ending text hending _ ih =>
    obtain ⟨hder, hrest⟩ := List.forall_mem_cons.mp hne
    have hdecoded := decoded_of_spells hder (encode_filter der)
    have hline : '\n' ∉ Base64.encode der := not_mem_encode (by decide)
    simp only [List.mem_cons, List.not_mem_nil, or_false] at hending
    rcases hending with rfl | rfl
    · rw [List.singleton_append, splitLines_cons hline, hreturn,
        List.filterMap_cons_some hdecoded, ih hrest]
    · have hline' : '\n' ∉ Base64.encode der ++ ['\r'] := by simpa using hline
      have hdrop : withoutReturn (Base64.encode der ++ ['\r']) = Base64.encode der := by
        simp [withoutReturn]
      rw [List.cons_append, List.singleton_append, List.append_cons, splitLines_cons hline', hdrop,
        List.filterMap_cons_some hdecoded, ih hrest]

/-- Text from which the certificates are read is in every respect as good as any other. -/
lemma canonical_of_blocks {text : String} (hne : ∀ der ∈ ders, der ≠ [])
    (h : pemBlocks text = ders.map derToPem) : Canonical ders text where
  blocks := h
  again := by rw [h, pemBlocks_join hne]
  formats := by
    intro lines hlines
    have hparse : parseStdout .base64DerLines lines =
        ((splitLines lines.toList).filterMap decoded).map derToPem := by
      rw [parseStdout, List.map_filterMap]
      congr 1
      funext line
      rw [decoded, Option.map_map]
      rfl
    rw [hparse, filterMap_splitLines hne hlines]
    exact h.symm

end Forms

section Layouts
variable {layout : Layout} {ders : List (List UInt8)} {text : String}

lemma Fills.ne_nil {parts : List (Part × List Char)} {stretches : List (List Char)}
    (h : Fills parts ders stretches) : ∀ der ∈ ders, der ≠ [] := by
  induction h with
  | nil => simp
  | certificate hne _ _ ih => exact List.forall_mem_cons.mpr ⟨hne, ih⟩
  | other _ ih => exact ih

lemma Layout.Renders.canonical (h : layout.Renders ders text)
    (hfree : layout.parts.IsChain fun part next => captured part next = false) :
    Canonical ders text := by
  obtain ⟨stretches, hfills, htext⟩ := h
  refine canonical_of_blocks hfills.ne_nil ?_
  rw [layout.pemBlocks_eq hfills htext, (hfills.certificatesIn_eq layout.wellFormed hfree).1]

/-- A layout in which all that is rendered is read in the one form is one without captures. -/
lemma uncaptured_of_canonical
    (h : ∀ ders text, layout.Renders ders text → Canonical ders text) :
    layout.parts.IsChain fun part next => captured part next = false := by
  obtain ⟨ders, stretches, hfills, hders⟩ := exists_fills layout.parts
  have htext : (String.ofList (layout.start ++ fenced '-' 5 stretches)).toList =
      layout.start ++ fenced '-' 5 stretches := String.toList_ofList
  have hblocks := (h ders _ ⟨stretches, hfills, htext⟩).blocks
  rw [layout.pemBlocks_eq hfills htext] at hblocks
  exact (hfills.uncaptured_of_eq layout.wellFormed hders).1
    (derToPem_injective.list_map hblocks)

/-- Certificates are read in their one form from all that a layout renders, exactly if none of its
blocks of other types is captured with what comes next. -/
theorem canonical_iff (layout : Layout) :
    (∀ ders text, layout.Renders ders text → Canonical ders text) ↔
      layout.parts.IsChain fun part next => captured part next = false :=
  ⟨uncaptured_of_canonical, fun hfree _ _ h => h.canonical hfree⟩

/-- Blocks whose markers stand on lines of their own are never captured. -/
theorem canonical_of_ownLines (h : layout.Renders ders text)
    (hlines : ∀ label body after, (.other label body, after) ∈ layout.parts →
      ∃ c ∈ body.head?, Text.isWhitespace c = true) : Canonical ders text := by
  have hmarker : ∀ {body : List Char}, (∃ c ∈ body.head?, Text.isWhitespace c = true) →
      isBegin body = false ∧ isEnd body = false := by
    rintro body ⟨c, hc, hspace⟩
    constructor
    · rw [Bool.eq_false_iff]
      intro hbegin
      obtain ⟨m, rfl⟩ := isBegin_iff.mp hbegin
      cases m with
      | zero => obtain rfl := Option.some.inj hc; cases hspace
      | succ m => obtain rfl := Option.some.inj hc; cases hspace
    · rw [Bool.eq_false_iff]
      intro hend
      obtain ⟨m, rfl⟩ := isEnd_iff.mp hend
      obtain rfl := Option.some.inj hc
      cases hspace
  have hspans : ∀ after, ∀ next ∈ layout.parts, spansInto after next.1 = false := by
    rintro after ⟨_ | ⟨label, body⟩, text⟩ hm
    · rfl
    · rw [spansInto, (hmarker (hlines label body text hm)).2, Bool.and_false, Bool.false_and]
  refine h.canonical (List.pairwise_of_forall_mem_list fun part hpart next hnext => ?_).isChain
  obtain ⟨_ | ⟨label, body⟩, after⟩ := part
  · rfl
  · obtain ⟨next, text⟩ := next
    rw [captured, (hmarker (hlines label body after hpart)).1, hspans after _ hnext]
    rfl

/-- A block of type `X` that holds the name of the opening marker, and a certificate. -/
def crossingLayout : Layout where
  start := []
  parts := [(.other ['X'] (opening certificateLabel), closing certificateLabel), (.certificate, [])]
  quiet_start := Quiet.of_free (by decide) (by decide)
  wellFormed := by
    have hquiet : ∀ {stretch}, '-' ∉ stretch → Quiet '-' 5 stretch := Quiet.of_free (by decide)
    simp only [List.forall_mem_cons, List.not_mem_nil, false_implies, implies_true, and_true]
    exact ⟨⟨⟨by decide, by decide, hquiet (by decide), hquiet (by decide)⟩, hquiet (by decide)⟩,
      trivial, hquiet (by decide)⟩

def crossingText : String :=
  "-----BEGIN X-----BEGIN CERTIFICATE-----END X-----END CERTIFICATE-----" ++
    "BEGIN CERTIFICATE-----AA==-----END CERTIFICATE-----"

/-- What is read is a certificate that is not there, and the one that is there is not read. -/
theorem crossing_misread : crossingLayout.Renders [[0]] crossingText ∧
    pemBlocks crossingText = [derToPem [16, 208, 215]] ∧ ¬Canonical [[0]] crossingText := by
  have hspells : Spells ['A', 'A', '=', '='] [0] := by
    unfold Spells
    decide
  have hfills : Fills crossingLayout.parts [[0]]
      [opening ['X'], opening certificateLabel, closing ['X'], closing certificateLabel,
        opening certificateLabel, ['A', 'A', '=', '='], closing certificateLabel, []] :=
    .other (.certificate (List.cons_ne_nil _ _) hspells .nil)
  have htext : crossingText.toList = crossingLayout.start ++ fenced '-' 5
      [opening ['X'], opening certificateLabel, closing ['X'], closing certificateLabel,
        opening certificateLabel, ['A', 'A', '=', '='], closing certificateLabel, []] := by
    decide +kernel
  have hread : pemBlocks crossingText = [derToPem [16, 208, 215]] := by
    have hdecoded : decoded (closing ['X']) = some [16, 208, 215] := by decide
    have hnil : certificatesIn [] = [] := by simp [certificatesIn, scanStretches]
    rw [crossingLayout.pemBlocks_eq hfills htext, certificatesIn_of_not_begin rfl,
      certificatesIn_body, if_pos (by decide), certificatesIn_of_not_begin rfl,
      certificatesIn_of_not_begin rfl, certificatesIn_of_not_begin rfl, hdecoded, hnil]
    rfl
  refine ⟨⟨_, hfills, htext⟩, hread, fun h => ?_⟩
  have hblocks := h.blocks
  rw [hread] at hblocks
  have hbytes := derToPem_injective (List.singleton_inj.mp hblocks)
  revert hbytes
  decide

end Layouts
end Portcall.Net
