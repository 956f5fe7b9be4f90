import Mathlib.Data.List.Chain
import Mathlib.Data.List.DropRight
import Portcall.Library.Fence
import Portcall.Net.Pem

/-! What the scan for certificate blocks finds in a text that is cut at its runs of five dashes: the
scan of the stretches between them. Any stretch can be taken for a marker, wherever it stands. -/
namespace Portcall.Net
open Fence

/-- Five dashes. -/
def fence : List Char := List.replicate 5 '-'

/-- What stands between the dashes of an opening marker. -/
def opening (label : List Char) : List Char := ['B', 'E', 'G', 'I', 'N', ' '] ++ label

/-- What stands between the dashes of a closing marker. -/
def closing (label : List Char) : List Char := ['E', 'N', 'D', ' '] ++ label

def certificateLabel : List Char := ['C', 'E', 'R', 'T', 'I', 'F', 'I', 'C', 'A', 'T', 'E']

lemma beginCertificate_eq : beginCertificate = fence ++ (opening certificateLabel ++ fence) := rfl

lemma endCertificate_eq : endCertificate = fence ++ (closing certificateLabel ++ fence) := rfl

/-- A stretch that the opening marker is read from: more than five dashes before it do no harm. -/
def isBegin (stretch : List Char) : Bool := stretch.dropWhile (· = '-') = opening certificateLabel

/-- A stretch that can be the body of a block. -/
def isBody (stretch : List Char) : Bool := stretch.all isBodyChar

/-- A stretch that the closing marker is read from: more than five dashes after it do no harm. -/
def isEnd (stretch : List Char) : Bool := stretch.rdropWhile (· = '-') = closing certificateLabel

/-- The bodies that are found in a text of these stretches, each behind five dashes. The stretch
that follows a block has lost the dashes in front of it. -/
def scanStretches : List (List Char) → List (List Char)
  | first :: body :: last :: after :: rest =>
    if isBegin first && isBody body && isEnd last then body :: scanStretches rest
    else scanStretches (body :: last :: after :: rest)
  | _ => []
termination_by stretches => stretches.length

section Markers
variable {stretch : List Char}

lemma exists_dashes (stretch : List Char) : ∃ m, stretch =
    List.replicate m '-' ++ stretch.dropWhile (· = '-') := by
  refine ⟨(stretch.takeWhile (· = '-')).length, ?_⟩
  have hdashes : stretch.takeWhile (· = '-') =
      List.replicate (stretch.takeWhile (· = '-')).length '-' :=
    List.eq_replicate_of_mem fun c hc => by simpa using List.mem_takeWhile_imp hc
  rw [← hdashes, List.takeWhile_append_dropWhile]

lemma head?_dropWhile_dash (stretch : List Char) :
    '-' ∉ (stretch.dropWhile (· = '-')).head? := by
  intro h
  have := List.head?_dropWhile_not (· = '-') stretch
  rw [Option.mem_def.mp h] at this
  simp at this

lemma isBegin_iff : isBegin stretch = true ↔
    ∃ m, stretch = List.replicate m '-' ++ opening certificateLabel := by
  rw [isBegin, decide_eq_true_eq]
  constructor
  · intro h
    obtain ⟨m, hm⟩ := exists_dashes stretch
    exact ⟨m, by rw [← h, ← hm]⟩
  · rintro ⟨m, rfl⟩
    rw [List.dropWhile_append_of_pos fun c hc => by simpa using List.eq_of_mem_replicate hc]
    rfl

lemma isEnd_iff : isEnd stretch = true ↔
    ∃ m, stretch = closing certificateLabel ++ List.replicate m '-' := by
  rw [isEnd, decide_eq_true_eq, List.rdropWhile, List.reverse_eq_iff]
  constructor
  · intro h
    obtain ⟨m, hm⟩ := exists_dashes stretch.reverse
    refine ⟨m, ?_⟩
    rw [h] at hm
    rw [← List.reverse_reverse stretch, hm]
    simp
  · rintro ⟨m, rfl⟩
    rw [List.reverse_append, List.reverse_replicate,
      List.dropWhile_append_of_pos fun c hc => by simpa using List.eq_of_mem_replicate hc]
    rfl

lemma not_mem_of_isBody (h : isBody stretch = true) : '-' ∉ stretch := by
  intro hm
  have := List.all_eq_true.mp h '-' hm
  revert this
  decide

lemma not_isBegin_of_isEnd (h : isEnd stretch = true) : isBegin stretch = false := by
  obtain ⟨m, rfl⟩ := isEnd_iff.mp h
  rfl

lemma isBegin_opening {label : List Char} :
    isBegin (opening label) = true ↔ label = certificateLabel := by
  rw [isBegin, decide_eq_true_eq]
  change opening label = opening certificateLabel ↔ _
  exact List.append_right_inj _

lemma not_isBegin_closing (label : List Char) : isBegin (closing label) = false := rfl

end Markers

section Scan
variable {text before stretch first body last after : List Char}
  {stretches rest : List (List Char)}

/-- A run of dashes that is too long begins no marker before its last five. -/
lemma dash_ne_marker {m : ℕ} {left right : List Char} :
    List.replicate (m + 1) '-' ++ (fence ++ left) ≠
      fence ++ (opening certificateLabel ++ right) := by
  intro h
  rw [← List.append_assoc, fence, List.replicate_append_replicate,
    Nat.add_comm (m + 1) 5, List.replicate_add, List.append_assoc] at h
  have hrest := List.append_cancel_left h
  rw [List.replicate_succ] at hrest
  exact absurd (List.cons.inj hrest).1 (by decide)

lemma certificateBlock_eq_none
    (h : ∀ right, text ≠ fence ++ (opening certificateLabel ++ right)) :
    certificateBlock text = none := by
  rw [Option.eq_none_iff_forall_ne_some]
  rintro ⟨body, after⟩ hblock
  refine h (fence ++ (body ++ (endCertificate ++ after))) ?_
  rw [(certificateBlock_eq_some hblock).1, beginCertificate_eq]
  simp only [List.append_assoc]

/-- A text in which no block begins is passed over. -/
lemma certificateBodies_skip
    (h : ∀ front back, before = front ++ back → back ≠ [] →
      certificateBlock (back ++ text) = none) :
    certificateBodies (before ++ text) = certificateBodies text := by
  induction before with
  | nil => rfl
  | cons c before ih =>
    have hnone : certificateBlock (c :: (before ++ text)) = none :=
      h [] (c :: before) rfl (List.cons_ne_nil _ _)
    rw [List.cons_append, certificateBodies_of_none hnone]
    exact ih fun front back hsplit => h (c :: front) back (by rw [hsplit, List.cons_append])

/-- A stretch in front of the first fence holds no marker. -/
lemma certificateBodies_quiet (hquiet : Quiet '-' 5 before) :
    certificateBodies (before ++ fenced '-' 5 stretches) =
      certificateBodies (fenced '-' 5 stretches) := by
  refine certificateBodies_skip fun front back hsplit hback => ?_
  refine certificateBlock_eq_none fun right he => ?_
  rw [hsplit] at hquiet
  have he' : back ++ fenced '-' 5 stretches =
      [] ++ (fence ++ (opening certificateLabel ++ right)) := he
  obtain ⟨next, following, m, -, -, hdashes, hmarker⟩ :=
    cut (by decide) hquiet.of_append_right List.not_mem_nil he'
  cases m with
  | zero => exact hback hdashes
  | succ m =>
    rw [List.replicate_succ] at hmarker
    exact absurd (List.cons.inj hmarker).1 (by decide)

/-- Of the dashes before a stretch, the last five are the fence. -/
lemma certificateBodies_fenced_cons : certificateBodies (fenced '-' 5 (stretch :: rest)) =
    certificateBodies (fence ++ (stretch.dropWhile (· = '-') ++ fenced '-' 5 rest)) := by
  obtain ⟨m, hm⟩ := exists_dashes stretch
  have hmove : fenced '-' 5 (stretch :: rest) = List.replicate m '-' ++
      (fence ++ (stretch.dropWhile (· = '-') ++ fenced '-' 5 rest)) := by
    rw [fenced_cons]
    nth_rewrite 1 [hm]
    rw [fence, ← List.append_assoc, ← List.append_assoc, ← List.append_assoc, ← List.append_assoc,
      List.replicate_append_replicate, List.replicate_append_replicate, Nat.add_comm]
  rw [hmove]
  refine certificateBodies_skip fun front back hsplit hback => ?_
  refine certificateBlock_eq_none fun right => ?_
  obtain ⟨-, -, hdashes⟩ := List.append_eq_replicate_iff.mp hsplit.symm
  obtain ⟨n, hn⟩ := Nat.exists_eq_succ_of_ne_zero (List.length_eq_zero_iff.not.mpr hback)
  rw [hdashes, hn]
  exact dash_ne_marker

/-- A fence that begins no block is passed over, with the stretch behind it. -/
lemma certificateBodies_of_no_block (hquiet : Quiet '-' 5 stretch)
    (h : certificateBlock (fence ++ (stretch.dropWhile (· = '-') ++ fenced '-' 5 rest)) = none) :
    certificateBodies (fenced '-' 5 (stretch :: rest)) = certificateBodies (fenced '-' 5 rest) := by
  have hnone : certificateBlock ('-' :: (List.replicate 4 '-' ++
      (stretch.dropWhile (· = '-') ++ fenced '-' 5 rest))) = none := h
  rw [certificateBodies_fenced_cons, fence, List.replicate_succ, List.cons_append,
    certificateBodies_of_none hnone, ← List.append_assoc]
  refine certificateBodies_quiet (Quiet.replicate_append (by decide) (head?_dropWhile_dash _) ?_)
  obtain ⟨m, hm⟩ := exists_dashes stretch
  rw [hm] at hquiet
  exact hquiet.of_append_right

/-- A block takes a stretch for its opening marker, the next for its body and one more for its
closing marker, and is followed by a stretch. -/
lemma window_of_block (hquiet : ∀ stretch ∈ first :: rest, Quiet '-' 5 stretch)
    (hapart : (first :: rest).IsChain (Apart '-'))
    (h : certificateBlock (fence ++ (first.dropWhile (· = '-') ++ fenced '-' 5 rest)) =
      some (body, after)) :
    isBegin first = true ∧ isBody body = true ∧ ∃ last next following,
      rest = body :: last :: next :: following ∧ isEnd last = true := by
  obtain ⟨htext, hbody⟩ := certificateBlock_eq_some h
  have hbody' : isBody body = true := List.all_eq_true.mpr hbody
  rw [beginCertificate_eq, List.append_assoc, List.append_assoc] at htext
  obtain ⟨dashes, hdashes⟩ := exists_dashes first
  have hfirst := hquiet first List.mem_cons_self
  rw [hdashes] at hfirst
  obtain ⟨second, following, k, rfl, hk, hopening, hrest⟩ :=
    cut (by decide) hfirst.of_append_right (by decide) (List.append_cancel_left htext)
  -- the dashes that are left over in front of the second stretch begin no fence
  have hsecond : Quiet '-' 5 (List.replicate k '-' ++ second) := by
    have hapart' : Apart '-' (List.replicate dashes '-' ++ opening certificateLabel ++
        List.replicate k '-') second := by
      rw [List.append_assoc, ← hopening, ← hdashes]
      exact (List.isChain_cons_cons.mp hapart).1
    exact hapart'.quiet hk (hquiet second (by simp))
  rw [endCertificate_eq, List.append_assoc, List.append_assoc, ← List.append_assoc _ second]
    at hrest
  obtain ⟨last, following, j, rfl, hj, hsplit, hclosing⟩ :=
    cut (by decide) hsecond (not_mem_of_isBody hbody') hrest.symm
  obtain rfl : j = 0 := by
    cases j with
    | zero => rfl
    | succ j =>
      rw [List.replicate_succ] at hclosing
      exact absurd (List.cons.inj hclosing).1 (by decide)
  rw [List.replicate_zero, List.append_nil] at hsplit
  obtain rfl : k = 0 := by
    cases k with
    | zero => rfl
    | succ k =>
      refine absurd ?_ (not_mem_of_isBody hbody')
      rw [← hsplit]
      exact List.mem_cons_self
  obtain ⟨next, following, m, rfl, -, hlast, -⟩ :=
    cut (by decide) (hquiet last (by simp)) (by decide) hclosing.symm
  refine ⟨isBegin_iff.mpr ⟨dashes, ?_⟩, hbody', last, next, following, ?_, isEnd_iff.mpr ⟨m, hlast⟩⟩
  · rw [hopening, List.replicate_zero, List.append_nil] at hdashes
    exact hdashes
  · rw [← hsplit]
    rfl

/-- Three such stretches are a block, wherever they come from. -/
lemma block_of_window {m : ℕ} (hfirst : isBegin first = true) (hbody : isBody body = true) :
    certificateBlock (fence ++ (first.dropWhile (· = '-') ++ fenced '-' 5
        (body :: (closing certificateLabel ++ List.replicate m '-') :: after :: rest))) =
      some (body, List.replicate m '-' ++ after ++ fenced '-' 5 rest) := by
  have hmove : List.replicate m '-' ++ (fence ++ (after ++ fenced '-' 5 rest)) =
      fence ++ (List.replicate m '-' ++ after ++ fenced '-' 5 rest) := by
    rw [fence, ← List.append_assoc, List.replicate_append_replicate, Nat.add_comm,
      ← List.replicate_append_replicate, List.append_assoc, List.append_assoc]
  rw [of_decide_eq_true hfirst,
    ← certificateBlock_append (List.all_eq_true.mp hbody), beginCertificate_eq, endCertificate_eq]
  congr 1
  simp only [fenced_cons, List.append_assoc]
  rw [← List.append_assoc (List.replicate m '-') after, ← hmove]
  rfl

/-- Without such stretches the first one is passed over. -/
lemma certificateBodies_of_no_window (hquiet : ∀ stretch ∈ first :: rest, Quiet '-' 5 stretch)
    (hapart : (first :: rest).IsChain (Apart '-'))
    (h : ∀ body last next following, rest = body :: last :: next :: following →
      ¬(isBegin first && isBody body && isEnd last)) :
    certificateBodies (fenced '-' 5 (first :: rest)) = certificateBodies (fenced '-' 5 rest) := by
  refine certificateBodies_of_no_block (hquiet first List.mem_cons_self) ?_
  rw [Option.eq_none_iff_forall_ne_some]
  rintro ⟨body, after⟩ hblock
  obtain ⟨hbegin, hbody, last, next, following, hrest, hend⟩ := window_of_block hquiet hapart hblock
  exact h body last next following hrest (by simp [hbegin, hbody, hend])

/-- The scan of a text is the scan of its stretches. -/
theorem certificateBodies_fenced (hquiet : ∀ stretch ∈ stretches, Quiet '-' 5 stretch)
    (hapart : stretches.IsChain (Apart '-')) :
    certificateBodies (fenced '-' 5 stretches) = scanStretches stretches := by
  fun_induction scanStretches stretches with
  | case1 first body last after rest hwindow ih =>
    simp only [Bool.and_eq_true] at hwindow
    obtain ⟨⟨hbegin, hbody⟩, hend⟩ := hwindow
    obtain ⟨m, rfl⟩ := isEnd_iff.mp hend
    have hlast := hquiet (closing certificateLabel ++ List.replicate m '-') (by simp)
    have hm : m < 5 := by
      by_contra hm
      refine hlast.of_append_right ?_
      exact (List.prefix_replicate_iff.mpr ⟨by simpa using hm, by simp⟩).isInfix
    have hafter : Quiet '-' 5 (List.replicate m '-' ++ after) :=
      (List.isChain_cons_cons.mp hapart.tail.tail).1.quiet hm (hquiet after (by simp))
    rw [certificateBodies_fenced_cons, certificateBodies_of_block (block_of_window hbegin hbody),
      certificateBodies_quiet hafter, ih (fun stretch hm => hquiet stretch (by simp [hm]))
      hapart.tail.tail.tail.tail]
  | case2 first body last after rest hwindow ih =>
    rw [certificateBodies_of_no_window hquiet hapart ?_,
      ih (fun stretch hm => hquiet stretch (List.mem_cons_of_mem _ hm)) hapart.tail]
    rintro _ _ _ _ hrest
    cases hrest
    exact hwindow
  | case3 stretches hshort =>
    -- no four stretches, so none of these begins a block
    induction stretches with
    | nil => rw [fenced_nil, certificateBodies]
    | cons first rest ih =>
      have hrest : ∀ body last next following, rest ≠ body :: last :: next :: following :=
        fun body last next following he => hshort first body last next following (by rw [he])
      rw [certificateBodies_of_no_window hquiet hapart fun body last next following he =>
        absurd he (hrest body last next following)]
      refine ih ?_ (fun stretch hm => hquiet stretch (List.mem_cons_of_mem _ hm)) hapart.tail
      exact fun first body last next following he => hrest first body last (next :: following) he

end Scan
end Portcall.Net
