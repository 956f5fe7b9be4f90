import Portcall.Report.Html
import Portcall.Report.Json
import Portcall.Report.Text

/-! The three renderings, and that each of them shows which profile was named. -/
namespace Portcall

inductive Format where
  | json
  | html
  | text
  deriving DecidableEq, Repr

def render {rx : ReportExternals} (report : RedactedReport rx) : Format → String
  | .json => renderJson report
  | .html => renderHtml report
  | .text => renderText report

/-- The report, had its profile been named otherwise. -/
def Report.named (report : Report) (id : String) : Report :=
  { report with profile := { report.profile with id := id } }

section Join

/-- Texts joined around one part tell that part, when the others are the same. -/
lemma join_middle_inj {separator left right : String} (before : List String)
    {after : List String}
    (h : Text.join separator (before ++ left :: after) =
      Text.join separator (before ++ right :: after)) : left = right := by
  induction before with
  | nil =>
    cases after with
    | nil => exact h
    | cons part after =>
      have hcons : ∀ head, Text.join separator ([] ++ head :: part :: after) =
          head ++ separator ++ Text.join separator (part :: after) := fun _ => rfl
      rwa [hcons, hcons, String.append_left_inj, String.append_left_inj] at h
  | cons part before ih =>
    have hcons : ∀ {rest : List String}, rest ≠ [] →
        Text.join separator (part :: rest) = part ++ separator ++ Text.join separator rest := by
      intro rest hrest
      cases rest with
      | nil => exact absurd rfl hrest
      | cons _ _ => rfl
    rw [List.cons_append, List.cons_append, hcons (by simp), hcons (by simp),
      String.append_right_inj] at h
    exact ih h

/-- An object tells each of its members. -/
lemma jsonObject_middle_inj (before : List JsonValue) {after : List JsonValue}
    {left right : JsonValue} {depth : ℕ}
    (h : jsonObject (before ++ left :: after) depth = jsonObject (before ++ right :: after) depth) :
    left (depth + 1) = right (depth + 1) := by
  have hne : ∀ member, (before ++ member :: after).isEmpty = false := by
    intro member
    rw [List.isEmpty_eq_false_iff]
    simp
  simp only [jsonObject, jsonBlock, hne, Bool.false_eq_true, if_false, List.map_append,
    List.map_cons, String.append_left_inj, String.append_right_inj] at h
  have hmember := join_middle_inj _ h
  rwa [String.append_right_inj] at hmember

lemma jsonMember_inj {key : String} {left right : JsonValue} {depth : ℕ}
    (h : jsonMember key left depth = jsonMember key right depth) : left depth = right depth := by
  unfold jsonMember at h
  rwa [String.append_right_inj] at h

end Join

section Named
variable {rx : ReportExternals} {report : Report} {left right : RedactedReport rx} {id id' : String}

lemma renderJson_named (hleft : left.report = report.named id)
    (hright : right.report = report.named id') (h : renderJson left = renderJson right) :
    id = id' := by
  unfold renderJson canonicalReport at h
  rw [hleft, hright] at h
  have hprofile := jsonMember_inj (jsonObject_middle_inj [_, _, _, _, _, _] h)
  have hid := jsonMember_inj (jsonObject_middle_inj [] hprofile)
  exact quote_injective hid

lemma renderText_named (hleft : left.report = report.named id)
    (hright : right.report = report.named id') (h : renderText left = renderText right) :
    id = id' := by
  unfold renderText textLines at h
  rw [hleft, hright] at h
  have hline := join_middle_inj [_, _] h
  dsimp only [Report.named] at hline
  rwa [String.append_left_inj, String.append_left_inj, String.append_left_inj,
    String.append_right_inj] at hline

lemma renderHtml_named (hleft : left.report = report.named id)
    (hright : right.report = report.named id') (h : renderHtml left = renderHtml right) :
    id = id' := by
  unfold renderHtml at h
  rw [hleft, hright] at h
  dsimp only at h
  rw [List.append_assoc, List.append_assoc] at h
  have hrow := join_middle_inj (htmlHead report) h
  unfold htmlRow at hrow
  rw [String.append_left_inj, String.append_right_inj] at hrow
  have hcell := escapeHtml_injective hrow
  dsimp only [Report.named] at hcell
  rwa [String.append_left_inj, String.append_left_inj, String.append_left_inj] at hcell

/-- Every rendering shows the name the profile was given on the command line. -/
theorem render_named (hleft : left.report = report.named id)
    (hright : right.report = report.named id') (format : Format)
    (h : render left format = render right format) : id = id' := by
  cases format with
  | json => exact renderJson_named hleft hright h
  | html => exact renderHtml_named hleft hright h
  | text => exact renderText_named hleft hright h

end Named
end Portcall
