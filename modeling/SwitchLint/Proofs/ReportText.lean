import SwitchLint.Proofs.JsonText
import SwitchLint.Report.Format

/-!
A report that is shown as JSON can be read back: nothing of it is lost, whatever its texts hold.
-/

namespace SwitchLint

open JsonReader

theorem JsonReader.Exact.natural {n : Nat} (bounded : n < 2 ^ 64) (levels : Nat) :
    Exact levels (.integer n) :=
  .integer levels (by omega) (by omega)

/-- All numbers have 64 bits. -/
structure Location.Bounded (l : Location) : Prop where
  line : l.line < 2 ^ 64
  column : l.column < 2 ^ 64
  offset : l.offset < 2 ^ 64
  length : l.length < 2 ^ 64

theorem Location.exact_toJson {l : Location} (bounded : l.Bounded) (levels : Nat) :
    Exact (levels + 1) l.toJson := by
  refine .object ?_
  simp only [List.forall_mem_cons]
  exact ⟨.string _ _, .natural bounded.line _, .natural bounded.column _, .natural bounded.offset _,
    .natural bounded.length _, by simp⟩

namespace Violation

theorem ofJson_toJson (v : Violation) : ofJson v.toJson = .ok v := by
  obtain ⟨code, rule, severity, location, message, suggestion⟩ := v
  cases suggestion <;> cases severity <;> rfl

theorem exact_toJson {v : Violation} (bounded : v.location.Bounded) (levels : Nat) :
    Exact (levels + 2) v.toJson := by
  have suggestion (message : String) : Exact (levels + 1) (suggestionToJson message) := by
    refine .object ?_
    simp only [List.forall_mem_cons]
    exact ⟨.string _ _, by simp⟩
  refine .object ?_
  simp only [List.forall_mem_append, List.forall_mem_cons]
  refine ⟨⟨.string _ _, .string _ _, .string _ _, Location.exact_toJson bounded levels, .string _ _,
    by simp⟩, ?_⟩
  cases v.suggestion with
  | none => simp
  | some message => simpa using suggestion message

end Violation

namespace Report

/-- All numbers have 64 bits. -/
structure Bounded (r : Report) : Prop where
  filesChecked : r.filesChecked < 2 ^ 64
  locations : ∀ v ∈ r.violations, v.location.Bounded

theorem toListOf_toJson (vs : List Violation) :
    (JsonValue.array (vs.map Violation.toJson)).toListOf Violation.ofJson = .ok vs := by
  rw [JsonValue.toListOf]
  induction vs with
  | nil => rfl
  | cons v vs ih =>
    rw [List.map_cons, List.mapM_cons, Violation.ofJson_toJson, ih]
    rfl

theorem ofJson_toJson (r : Report) : ofJson r.toJson = .ok r := by
  obtain ⟨violations, filesChecked⟩ := r
  have read := toListOf_toJson violations
  have first : Draft.set {} ("violations", .array (violations.map Violation.toJson)) =
      .ok { violations := some violations } := by
    rw [Draft.set, read]
    rfl
  have taken : JsonValue.takeEntry ["violations", "files_checked"] Draft.set ([], {})
      ("violations", .array (violations.map Violation.toJson)) =
        .ok (["violations"], { violations := some violations }) := by
    rw [JsonValue.takeEntry, first]
    rfl
  rw [ofJson, toJson, JsonValue.toRecord, List.foldlM_cons, taken]
  rfl

theorem exact_toJson {r : Report} (bounded : r.Bounded) (levels : Nat) :
    Exact (levels + 4) r.toJson := by
  have violations : Exact (levels + 3) (.array (r.violations.map Violation.toJson)) := by
    refine .array ?_
    simp only [List.forall_mem_map]
    exact fun v hv => Violation.exact_toJson (bounded.locations v hv) levels
  refine .object ?_
  simp only [List.forall_mem_cons]
  exact ⟨violations, .natural bounded.filesChecked _, by simp⟩

/-- A report that is shown as JSON is read back as the same report. -/
theorem ofText_render {r : Report} (bounded : r.Bounded) : ofText (r.render .json) = .ok r := by
  have read := (JsonValue.ofText_text (exact_toJson bounded 123)).2
  rw [ofText, render, renderJson, read]
  simp only [ofJson_toJson]
  rfl

/-- Texts that have to be escaped, numbers as large as they can be, and a suggestion in one finding only. -/
def awkward : Report where
  violations :=
    [⟨"\x22\\\x22", "\x00\x08\x0c\x1b\x1f", .error, ⟨"a\\b.go", 2 ^ 64 - 1, 0, 2 ^ 64 - 1, 1⟩,
        "\r\n\t\x7f", some "\x7b\x22message\x22: \u2028é\x7d"⟩,
      ⟨"", "long-chain", .info, ⟨"", 0, 2 ^ 64 - 1, 0, 2 ^ 64 - 1⟩, "", none⟩]
  filesChecked := 2 ^ 64 - 1

theorem ofText_render_awkward :
    awkward.Bounded ∧ ofText (awkward.render .json) = .ok awkward := by
  have bounded : awkward.Bounded := by
    refine ⟨by decide, fun v hv => ?_⟩
    simp only [awkward, List.mem_cons, List.not_mem_nil, or_false] at hv
    rcases hv with rfl | rfl <;> constructor <;> decide
  exact ⟨bounded, ofText_render bounded⟩

end Report

end SwitchLint
