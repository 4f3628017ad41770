import FixtureCheck.Network.Endpoint
import FixtureCheck.Proofs.Except
import FixtureCheck.Proofs.Json.Proper

/-!
# What answers describe

An answer describes a schema if it has the status 200 and its body is a JSON object that holds data and no errors
(`Response.schema_eq_ok_iff`); the description is that data, and it is proper.
-/

namespace FixtureCheck.Network

variable {name : String} {d : Json}

/-- An object describes what it holds as its data, unless it holds errors. -/
theorem describedSchema_obj (entries : List (String × Json)) : describedSchema (.obj entries) =
    match Json.lookup entries "errors", Json.lookup entries "data" with
    | some errors, _ => .error (.refused errors)
    | none, some description => .ok description
    | none, none => .error (.shape (.absent "data")) := by
  unfold describedSchema
  simp only [Json.holds, Json.entry, Json.any_key_iff]
  cases Json.lookup entries "errors" with
  | some errors => rfl
  | none => cases Json.lookup entries "data" <;> rfl

/-- Other values describe nothing: they cannot be asked. -/
theorem describedSchema_of_not_obj {body : Json} (h : ∀ entries, body ≠ .obj entries) :
    ∃ cause, describedSchema body = .error (.shape cause) := by
  unfold describedSchema
  cases body with
  | obj entries => exact absurd rfl (h entries)
  | arr items =>
    refine ⟨.arrayIndex, ?_⟩
    simp only [Json.holds, Json.entry, Except.mapError]
    generalize (items.any _) = found
    cases found <;> rfl
  | str s =>
    refine ⟨.textIndex, ?_⟩
    simp only [Json.holds, Json.entry, Except.mapError]
    cases Json.containsText "errors".toList s.toList <;> rfl
  | _ => exact ⟨_, rfl⟩

theorem Response.schema_eq (r : Response) : r.schema = if r.status = 200 then
    (r.json.mapError .notJson) >>= describedSchema else .error (.status r.status) := by
  unfold Response.schema
  by_cases hstatus : r.status = 200
  · simp [hstatus]
  · simp [hstatus]
    rfl

theorem Response.schema_of_parse {r : Response} {body : Json} (hstatus : r.status = 200)
    (hbody : Json.parse r.body = .ok body) : r.schema = describedSchema body := by
  rw [schema_eq, if_pos hstatus, json, hbody]
  rfl

/-- **What an answer describes**: it has the status 200 and a JSON object with no errors, but with the description. -/
theorem Response.schema_eq_ok_iff {r : Response} : r.schema = .ok d ↔ r.status = 200 ∧ ∃ entries,
    Json.parse r.body = .ok (.obj entries) ∧ Json.lookup entries "errors" = none ∧
      Json.lookup entries "data" = some d := by
  rw [schema_eq]
  split
  next hstatus =>
    rw [bind_eq_ok_iff]
    constructor
    · rintro ⟨body, hbody, hd⟩
      refine ⟨hstatus, ?_⟩
      have hparse : Json.parse r.body = .ok body := mapError_eq_ok_iff.1 (mapError_eq_ok_iff.1 hbody)
      by_cases hobj : ∃ entries, body = .obj entries
      · obtain ⟨entries, rfl⟩ := hobj
        refine ⟨entries, hparse, ?_⟩
        rw [describedSchema_obj] at hd
        split at hd
        · cases hd
        next herrors hdata =>
          cases hd
          exact ⟨herrors, hdata⟩
        · cases hd
      · obtain ⟨cause, herror⟩ := describedSchema_of_not_obj fun entries h => hobj ⟨entries, h⟩
        rw [herror] at hd
        cases hd
    · rintro ⟨-, entries, hparse, herrors, hdata⟩
      refine ⟨.obj entries, ?_, ?_⟩
      · rw [Response.json, hparse]
        rfl
      · rw [describedSchema_obj, herrors, hdata]
  next hstatus =>
    constructor
    · exact fun h => by cases h
    · exact fun h => absurd h.1 hstatus

theorem Response.isProper_of_schema {r : Response} (h : r.schema = .ok d) : d.IsProper := by
  obtain ⟨-, entries, hparse, -, hdata⟩ := schema_eq_ok_iff.1 h
  exact (Json.isProper_of_parse hparse).of_lookup hdata

end FixtureCheck.Network
