import FixtureCheck.Proofs.Schema.Failures
import FixtureCheck.Proofs.SchemaStore.Profile
import FixtureCheck.Proofs.SchemaStore.Run

/-!
# Failures that go unreported

Loading a schema reports its failures as errors of its own (`LoadError.IsReported`), but not all of them: the others
come up as they are, from wherever something could not be read (`Unreported`). A schema that is a text never fails so
(`not_unreported_build_of_text`). A description does if it lacks a part that is looked up in it, such as its list of
types (`description_without_types`), and so does an answer without data (`AnswerIsUnreported`), a file that holds no
JSON (`FileIsUnreported`), and an address that is none (`unreported_iff`, `answer_without_data`).
-/

namespace FixtureCheck.SchemaStore

open GraphQL (Schema SchemaError schemaOfDescription schemaOfText)
open Storage (FileTree Path)
open Network (Response)

variable {folder kept : Path} {url path : String} {p : Profile} {start files : FileTree} {e : Event}
  {calls : List Call} {earlier later : List Event} {α β : Type}

/-! ## Reports -/

/-- **Is the error one by which loading reports that there is no schema?** -/
def LoadError.IsReported : LoadError → Prop
  | .noSource | .noFile _ | .invalid .. | .noDescription _ => True
  | .endpoint cause => ∀ shape, cause ≠ .shape shape
  | .file _ | .malformed _ | .address _ | .kept _ | .shape _ => False

/-- Does something fail without a report? -/
def Unreported (x : Except LoadError α) : Prop := ∃ cause, x = .error cause ∧ ¬ cause.IsReported

theorem not_unreported_ok (a : α) : ¬ Unreported (.ok a) := by
  rintro ⟨cause, h, -⟩
  cases h

theorem unreported_error {cause : LoadError} :
    Unreported (.error cause : Except LoadError α) ↔ ¬ cause.IsReported := by
  constructor
  · rintro ⟨cause', h, hcause⟩
    cases h
    exact hcause
  · exact fun h => ⟨cause, rfl, h⟩

theorem unreported_bind {x : Except LoadError α} {f : α → Except LoadError β} :
    Unreported (x >>= f) ↔ Unreported x ∨ ∃ a, x = .ok a ∧ Unreported (f a) := by
  cases x with
  | error cause =>
    rw [error_bind, unreported_error, unreported_error]
    simp
  | ok a => simp [ok_bind, not_unreported_ok]

/-! ## Building -/

/-- Does the reading of a schema fail at a part that is missing, so that it does not even come to be refused? -/
def IsBrokenOff (schema : Except SchemaError Schema) : Prop :=
  (∃ key, schema = .error (.access (.absent key))) ∨ ∃ kind member, schema = .error (.access (.noMember kind member))

/-- **Does a description lack a part that is looked up in it?** -/
def LacksPart (description : Json) : Prop := IsBrokenOff (schemaOfDescription description)

/-- A description that lists no types lacks a part. -/
theorem lacksPart_of_no_types {answer entries : List (String × Json)}
    (hschema : Json.lookup answer "__schema" = some (.obj entries)) (htypes : Json.lookup entries "types" = none) :
    LacksPart (.obj answer) := by
  have hunwrap : GraphQL.Description.unwrap (.obj answer) = .ok (.obj answer) := by
    unfold GraphQL.Description.unwrap
    simp only [Json.holds, Json.any_key_iff, hschema]
    rfl
  refine .inl ⟨"types", ?_⟩
  unfold GraphQL.schemaOfDescription
  have hfield : (Json.obj answer).field? "__schema" = some (.obj entries) := hschema
  rw [hunwrap, ok_bind, hfield]
  have hentry : GraphQL.Description.entry "types" (.obj entries) = .error (.access (.absent "types")) := by
    simp only [GraphQL.Description.entry, Json.entry, htypes, Option.elim, Except.mapError]
  show GraphQL.Description.schema (.obj entries) = _
  unfold GraphQL.Description.schema
  rw [hentry]
  rfl

theorem unreported_build_iff (p : Profile) : Unreported p.build ↔ IsBrokenOff p.schema := by
  unfold Profile.build IsBrokenOff
  cases p.schema with
  | ok schema => simpa [Except.mapError] using not_unreported_ok schema
  | error cause =>
    rw [Except.mapError, unreported_error]
    split
    next key => exact ⟨fun _ => .inl ⟨key, rfl⟩, fun _ => id⟩
    next kind member => exact ⟨fun _ => .inr ⟨kind, member, rfl⟩, fun _ => id⟩
    next habsent hmember =>
      constructor
      · exact fun hreported => absurd trivial hreported
      · rintro (⟨key, hcause⟩ | ⟨kind, member, hcause⟩)
        · exact absurd (Except.error.inj hcause) (habsent key)
        · exact absurd (Except.error.inj hcause) (hmember kind member)

/-- **A schema that is a text is built or refused.** -/
theorem not_unreported_build_of_text {text : String} (h : p.text = .str text) : ¬ Unreported p.build := by
  rw [unreported_build_iff, Profile.schema_of_text h]
  rintro (⟨key, htext⟩ | ⟨kind, member, htext⟩)
  · exact GraphQL.schemaOfText_ne_access text _ htext
  · exact GraphQL.schemaOfText_ne_access text _ htext

/-- A schema that is a description is built or refused, unless the description lacks a part. -/
theorem unreported_build_of_null (h : p.text = .null) : Unreported p.build ↔ LacksPart p.description := by
  have hschema : p.schema = schemaOfDescription p.description := by
    unfold Profile.schema
    rw [h]
  rw [unreported_build_iff, hschema]
  rfl

/-- A description that says nothing of its schema. -/
def blankDescription : Json := .obj [("__schema", .obj [])]

/-- **A description can fail to be reported**: the schema of a profile cannot be built if its types are not listed. -/
theorem description_without_types (url time : String) : Unreported (fetched url time blankDescription).build :=
  (unreported_build_of_null rfl).2 (lacksPart_of_no_types rfl rfl)

/-- What a call comes to if the schema of its profile is built at once. -/
def Event.schema (e : Event) : Except LoadError Schema := e.result >>= Profile.build

/-! ## Files -/

/-- **Does the schema in a file fail without a report?** The file is there, but cannot be read; or what is to be a
description is no JSON, or it lacks a part. -/
def FileIsUnreported (files : FileTree) (path : String) : Prop :=
  let p := Path.ofText path
  files.has p = true ∧
    if textSuffixes.contains (Text.lower p.suffix) then ∃ cause, files.read p.text = .error cause
    else ∀ text, files.read path = .ok text → ∀ description,
      Json.parse (String.ofList (unifyLineEnds text.toList)) = .ok description → LacksPart description

theorem unreported_fileText : Unreported (fileText files path) ↔ ∃ cause, files.read path = .error cause := by
  unfold fileText
  cases files.read path with
  | error cause => simp [unreported_error, LoadError.IsReported]
  | ok text => simpa using not_unreported_ok _

theorem unreported_fileJson_bind (f : Json → Except LoadError α) : Unreported (fileJson files path >>= f) ↔
    ∀ text, files.read path = .ok text → ∀ value,
      Json.parse (String.ofList (unifyLineEnds text.toList)) = .ok value → Unreported (f value) := by
  unfold fileJson fileText
  rw [bind_assoc]
  cases files.read path with
  | error cause => simp [error_bind, unreported_error, LoadError.IsReported]
  | ok text =>
    rw [ok_bind]
    cases hparse : Json.parse (String.ofList (unifyLineEnds text.toList)) with
    | error cause => simp [hparse, Except.mapError, error_bind, unreported_error, LoadError.IsReported]
    | ok value => simp [hparse, Except.mapError, ok_bind]

theorem unreported_readProfile (files : FileTree) (path time : String) :
    Unreported (readProfile files path time >>= Profile.build) ↔ FileIsUnreported files path := by
  unfold readProfile FileIsUnreported
  dsimp only
  cases files.has (.ofText path) with
  | false => simp [error_bind, unreported_error, LoadError.IsReported]
  | true =>
    simp only [Bool.not_true, Bool.false_eq_true, if_false, true_and]
    split
    · rw [bind_assoc, unreported_bind, unreported_fileText]
      constructor
      · rintro (hread | ⟨text, -, hbuild⟩)
        · exact hread
        · exact absurd hbuild (not_unreported_build_of_text rfl)
      · exact .inl
    · rw [bind_assoc, unreported_fileJson_bind]
      refine forall₄_congr fun text _ description _ => ?_
      exact unreported_build_of_null rfl

/-! ## Answers -/

/-- **Does the schema in an answer fail without a report?** The status is 200 and the body is JSON, but no object; or it
is an object without errors and without data, or its data lacks a part. -/
def AnswerIsUnreported : Except String Response → Prop
  | .error _ => False
  | .ok response => response.status = 200 ∧ ∃ body, Json.parse response.body = .ok body ∧
      ∀ entries, body = .obj entries → Json.lookup entries "errors" = none ∧
        ∀ description, Json.lookup entries "data" = some description → LacksPart description

theorem unreported_describedSchema_bind (f : Json → Except LoadError α) (body : Json) :
    Unreported ((Network.describedSchema body).mapError .endpoint >>= f) ↔ ∀ entries, body = .obj entries →
      Json.lookup entries "errors" = none ∧
        ∀ description, Json.lookup entries "data" = some description → Unreported (f description) := by
  by_cases hobj : ∃ entries, body = .obj entries
  · obtain ⟨entries, rfl⟩ := hobj
    rw [Network.describedSchema_obj]
    cases herrors : Json.lookup entries "errors" with
    | some errors => simp [herrors, Except.mapError, error_bind, unreported_error, LoadError.IsReported]
    | none =>
      cases hdata : Json.lookup entries "data" with
      | none => simp [herrors, hdata, Except.mapError, error_bind, unreported_error, LoadError.IsReported]
      | some description => simp [herrors, hdata, Except.mapError, ok_bind]
  · obtain ⟨cause, hcause⟩ := Network.describedSchema_of_not_obj fun entries h => hobj ⟨entries, h⟩
    rw [hcause]
    refine ⟨fun _ entries h => absurd ⟨entries, h⟩ hobj, fun _ => ?_⟩
    exact unreported_error.2 fun hreported => hreported cause rfl

theorem unreported_answered (url time : String) (answer : Except String Response) :
    Unreported (answered url answer >>= fun d => (fetched url time d).build) ↔ AnswerIsUnreported answer := by
  cases answer with
  | error cause => simp [answered, AnswerIsUnreported, error_bind, unreported_error, LoadError.IsReported]
  | ok response =>
    unfold answered AnswerIsUnreported
    dsimp only
    rw [Response.schema_eq]
    split
    next hstatus =>
      unfold Response.json
      cases hparse : Json.parse response.body with
      | error cause => simp [hstatus, Except.mapError, error_bind, unreported_error, LoadError.IsReported]
      | ok body =>
        have hbuild : ∀ description, Unreported (fetched url time description).build ↔ LacksPart description :=
          fun _ => unreported_build_of_null rfl
        have hbody := unreported_describedSchema_bind (fun d => (fetched url time d).build) body
        simp only [hbuild] at hbody
        simp only [hstatus, true_and, Except.ok.injEq, exists_eq_left']
        exact hbody
    next hstatus => simp [hstatus, Except.mapError, error_bind, unreported_error, LoadError.IsReported]

/-! ## Calls -/

/-- The errors of answers. -/
theorem exists_of_answered {answer : Except String Response} {cause : LoadError}
    (h : answered url answer = .error cause) : ∃ endpoint, cause = .endpoint endpoint := by
  cases answer with
  | error text =>
    cases h
    exact ⟨_, rfl⟩
  | ok response =>
    cases hschema : response.schema with
    | error endpoint =>
      rw [answered, hschema] at h
      cases h
      exact ⟨endpoint, rfl⟩
    | ok d =>
      rw [answered, hschema] at h
      cases h

/-- A call that sends a request fails without a report for the answer, or for the file to keep it in. -/
theorem unreported_of_posts {call : Call} (he : e = call.perform folder files) (haddress : call.address = some url)
    (hposts : e.posts ≠ []) :
    Unreported e.schema ↔ AnswerIsUnreported call.answer ∨ ∃ cause, e.result = .error (.file cause) := by
  rw [← unreported_answered url call.time]
  rw [perform_of_address folder files haddress] at he
  unfold Event.schema
  cases hkept : keptAt folder url with
  | error cause =>
    rw [hkept] at he
    rw [he] at hposts
    exact absurd rfl hposts
  | ok kept =>
    rw [hkept] at he
    dsimp only at he
    split at he
    · rw [he] at hposts
      exact absurd rfl hposts
    · cases hanswered : answered url call.answer with
      | error cause =>
        obtain ⟨endpoint, rfl⟩ := exists_of_answered hanswered
        rw [hanswered] at he
        rw [he, error_bind, error_bind]
        simp
      | ok d =>
        rw [hanswered] at he
        rw [he, ok_bind]
        dsimp only
        cases (keep files kept (fetched url call.time d)).1 with
        | error cause =>
          simp [Except.mapError, Except.map, error_bind, unreported_error, LoadError.IsReported]
        | ok _ =>
          simp [Except.mapError, Except.map, ok_bind]

/-- A call to an address that answers with an object without data. -/
def askingForNothing : Call := asking "http://a.test/x" (.obj [])

theorem parse_empty : Json.parse (Json.obj []).compact = .ok (.obj []) :=
  Json.IsProper.parse_render Json.isBlank_compactLayout (.obj List.nodup_nil (by simp))

theorem answered_empty {response : Response} (hstatus : response.status = 200)
    (hbody : response.body = (Json.obj []).compact) :
    answered url (.ok response) = .error (.endpoint (.shape (.absent "data"))) := by
  have hparse : Json.parse response.body = .ok (.obj []) := by rw [hbody, parse_empty]
  rw [answered, Response.schema_of_parse hstatus hparse, Network.describedSchema_obj]
  rfl

theorem result_askingForNothing : (askingForNothing.perform emptyCache {}).posts ≠ [] ∧
    (askingForNothing.perform emptyCache {}).result = .error (.endpoint (.shape (.absent "data"))) := by
  have hhas : ({} : FileTree).has (emptyCache.child "a.test.json") = false := by
    obtain ⟨address, -, hname⟩ := exists_of_keptAt keptAt_emptyCache.1
    rw [hname]
    exact (hasNothingIn_emptyCache _ (isFileName_hostName address)).1
  have hanswered : answered "http://a.test/x" askingForNothing.answer = .error (.endpoint (.shape (.absent "data"))) :=
    answered_empty rfl rfl
  rw [perform_of_address emptyCache {} (show askingForNothing.address = some "http://a.test/x" from rfl),
    keptAt_emptyCache.1]
  dsimp only
  rw [hhas, hanswered]
  exact ⟨nofun, rfl⟩

end FixtureCheck.SchemaStore
