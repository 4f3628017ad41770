import FixtureCheck.Proofs.Schema.Inputs
import FixtureCheck.SchemaStore.Load

/-!
# Schemas of profiles are well formed

Whatever a profile holds, a text or a description, kept or just fetched: the schema that is built of it is well formed
(`Profile.isWellFormed_of_build`) and takes inputs as it should (`Profile.takesInputs_of_build`). So every schema that a
fixture or an output is checked against does.
-/

namespace FixtureCheck.SchemaStore

open GraphQL (Schema)

variable {p : Profile} {schema : Schema}

theorem Profile.schema_of_text {text : String} (h : p.text = .str text) : p.schema = GraphQL.schemaOfText text := by
  unfold Profile.schema
  rw [h]
  rfl

theorem Profile.isWellFormed_of_schema (h : p.schema = .ok schema) : schema.IsWellFormed := by
  unfold Profile.schema at h
  split at h
  · exact GraphQL.isWellFormed_of_schemaOfDescription h
  · obtain ⟨text, -, htext⟩ := bind_eq_ok_iff.1 h
    exact GraphQL.isWellFormed_of_schemaOfText htext

/-- **Every schema that is built is well formed.** -/
theorem Profile.isWellFormed_of_build (h : p.build = .ok schema) : schema.IsWellFormed :=
  Profile.isWellFormed_of_schema (mapError_eq_ok_iff.1 h)

/-- **Every schema that is built takes inputs as it should.** -/
theorem Profile.takesInputs_of_build (h : p.build = .ok schema) : schema.TakesInputs := by
  have hschema : p.schema = .ok schema := mapError_eq_ok_iff.1 h
  unfold Profile.schema at hschema
  split at hschema
  · exact GraphQL.takesInputs_of_schemaOfDescription hschema
  · obtain ⟨text, -, htext⟩ := bind_eq_ok_iff.1 hschema
    exact GraphQL.takesInputs_of_schemaOfText htext

end FixtureCheck.SchemaStore
