import FixtureCheck.Proofs.Machine
import FixtureCheck.SchemaStore.Load

/-!
# Calls

A `Call` is a request for a schema with the time and the answer of the endpoint. What it comes to on some files is an
`Event`, and calls come one after the other (`run`). A call that asks no address neither sends nor writes anything
(`perform_of_address_none`); any other one takes the profile in the file of the address, or sends one request and keeps
what the address describes (`perform_of_address`).
-/

namespace FixtureCheck.SchemaStore

open Storage (FileTree Path FileError)
open Network (Response)

variable {folder kept : Path} {url path : String} {s : Machine}

/-! ## What the parts of loading come to -/

/-- The text of a file of a tree. -/
def fileText (files : FileTree) (path : String) : Except LoadError String :=
  match files.read path with
  | .ok text => .ok (String.ofList (unifyLineEnds text.toList))
  | .error cause => .error (.file cause)

/-- The value in a file of a tree. -/
def fileJson (files : FileTree) (path : String) : Except LoadError Json := do
  (Json.parse (← fileText files path)).mapError .malformed

/-- The profile in a file of a tree. -/
def fileProfile (files : FileTree) (path : String) : Except LoadError Profile := do
  (Profile.ofJson (← fileJson files path)).mapError .kept

theorem outcome_readFile (path : String) (s : Machine) :
    outcome (readFile path) s = (fileText s.files path, s) := by
  unfold readFile fileText
  rw [outcome_bind, outcome_readText]
  cases s.files.read path <;> rfl

theorem outcome_readJson (path : String) (s : Machine) :
    outcome (readJson path) s = (fileJson s.files path, s) := by
  unfold readJson fileJson
  rw [outcome_bind, outcome_readFile]
  cases fileText s.files path with
  | error e => rfl
  | ok text => exact outcome_ofExcept _ s

theorem outcome_attempt (action : StateM Machine (Except FileError Unit)) (s : Machine) :
    outcome (attempt action) s = (((action.run s).1.mapError .file), (action.run s).2) := by
  have haction : outcome (liftM action : ExceptT LoadError (StateM Machine) _) s =
      (.ok (action.run s).1, (action.run s).2) := rfl
  unfold attempt
  rw [outcome_bind, haction]
  dsimp only
  cases (action.run s).1 <;> rfl

/-- What the answer of an endpoint describes. -/
def answered (url : String) : Except String Response → Except LoadError Json
  | .error cause => .error (.endpoint (.unreachable url cause))
  | .ok response => response.schema.mapError .endpoint

/-- The profile of what an endpoint described at a time. -/
def fetched (url time : String) (description : Json) : Profile :=
  { url := .str url, fetchedAt := .str time, digest := .str (digestOf description), description }

theorem outcome_introspect {answer : Except String Response} {answers : List (Except String Response)}
    (h : s.answers = answer :: answers) (token : Option String) :
    outcome ((Network.introspect url token).adapt LoadError.endpoint) s =
      (answered url answer, { s with posts := s.posts ++ [Network.schemaPost url token], answers }) := by
  have hpost : outcome (Host.post (Network.schemaPost url token) : ExceptT Network.EndpointError (StateM Machine) _) s =
      (.ok answer, { s with posts := s.posts ++ [Network.schemaPost url token], answers }) := by
    show (Except.ok (Machine.answer _ s).1, (Machine.answer _ s).2) = _
    unfold Machine.answer
    rw [h]
  unfold Network.introspect
  rw [outcome_adapt, outcome_bind, hpost]
  cases answer with
  | error cause => rfl
  | ok response =>
    dsimp only
    rw [outcome_ofExcept]
    rfl

theorem outcome_profileNow (url : String) (description : Json) (s : Machine) :
    outcome (profileNow url description false) s = (.ok (fetched url s.clock description), s) := rfl

theorem run_makeFolders (p : Path) (s : Machine) : (Host.makeFolders p : StateM Machine _).run s =
    match s.files.makeFolders p with
    | .error e => (.error e, s)
    | .ok files => (.ok (), { s with files }) := rfl

theorem run_write (path text : String) (s : Machine) : (Host.write path text : StateM Machine _).run s =
    match s.files.write path text with
    | .error e => (.error e, s)
    | .ok files => (.ok (), { s with files }) := rfl

/-- The files after a profile was kept in a file. -/
def keep (files : FileTree) (kept : Path) (p : Profile) : Except FileError Unit × FileTree :=
  match files.makeFolders kept.parent with
  | .error e => (.error e, files)
  | .ok files =>
    match files.write kept.text p.toJson.indented with
    | .error e => (.error e, files)
    | .ok files => (.ok (), files)

theorem outcome_fetch {answer : Except String Response} {answers : List (Except String Response)}
    (h : s.answers = answer :: answers) (token : Option String) (kept : Path) :
    outcome (fetch url token kept) s = match answered url answer with
      | .error e => (.error e, { s with posts := s.posts ++ [Network.schemaPost url token], answers })
      | .ok description =>
        let p := fetched url s.clock description
        let (result, files) := keep s.files kept p
        ((result.map fun _ => p).mapError .file,
          { s with files, posts := s.posts ++ [Network.schemaPost url token], answers }) := by
  unfold fetch
  rw [outcome_bind, outcome_introspect h]
  cases answered url answer with
  | error e => rfl
  | ok description =>
    dsimp only
    rw [outcome_bind, outcome_profileNow]
    dsimp only
    rw [outcome_bind, outcome_attempt, run_makeFolders]
    unfold keep
    dsimp only
    cases s.files.makeFolders kept.parent with
    | error e => rfl
    | ok made =>
      dsimp only [Except.mapError]
      rw [outcome_bind, outcome_attempt, run_write]
      dsimp only
      cases made.write kept.text (fetched url s.clock description).toJson.indented with
      | error e => rfl
      | ok written => rfl

/-- The profile in the file of an address, or what the address answers. -/
theorem outcome_loadUrl (folder : Path) (url : String) (request : SchemaRequest) (s : Machine) :
    outcome (loadUrl folder url request) s = match keptAt folder url with
      | .error e => (.error (.address e), s)
      | .ok kept =>
        if request.allowsKept && !request.refresh && s.files.has kept then (fileProfile s.files kept.text, s)
        else outcome (fetch url request.token kept) s := by
  unfold loadUrl
  rw [outcome_bind, outcome_ofExcept]
  cases keptAt folder url with
  | error e => rfl
  | ok kept =>
    dsimp only [Except.mapError]
    rw [outcome_bind, outcome_has]
    dsimp only
    split
    · rw [outcome_bind, outcome_readJson]
      unfold fileProfile
      cases fileJson s.files kept.text with
      | error e => rfl
      | ok value => exact outcome_ofExcept _ s
    · rfl

/-! ## Calls -/

/-- A call: what is asked for, the time, and the answer that the endpoint gives if it is asked. -/
structure Call where
  request : SchemaRequest
  time : String
  answer : Except String Response

/-- What a call comes to: the files before it, its result, the requests that it sent and the files after it. -/
structure Event where
  call : Call
  before : FileTree
  result : Except LoadError Profile
  posts : List Post
  after : FileTree

/-- A call on some files. -/
def Call.perform (folder : Path) (files : FileTree) (call : Call) : Event :=
  let (result, machine) := outcome (load folder call.request) { files, clock := call.time, answers := [call.answer] }
  ⟨call, files, result, machine.posts, machine.files⟩

/-- Calls one after the other, each on the files that the one before it left. -/
def run (folder : Path) (files : FileTree) : List Call → List Event
  | [] => []
  | call :: calls =>
    let event := call.perform folder files
    event :: run folder event.after calls

/-- The address that a call asks for a schema, if it asks one. -/
def Call.address (call : Call) : Option String :=
  match call.request.file.filter (· ≠ ""), call.request.url with
  | none, .str url => if url = "" then none else some url
  | _, _ => none

variable {call : Call} {files : FileTree}

/-- The profile of what a file of a tree says, at a time: the file holds a text or a description, as its name tells. -/
def readProfile (files : FileTree) (path time : String) : Except LoadError Profile :=
  let p := Path.ofText path
  if !files.has p then .error (.noFile path)
  else if textSuffixes.contains (Text.lower p.suffix) then do
    let text ← fileText files p.text
    return { url := .str ("file://" ++ path), fetchedAt := .str time, digest := .str (digestOf (.str text)),
             text := .str text }
  else do
    return fetched ("file://" ++ path) time (← fileJson files path)

theorem readProfile_of_text {text time : String} (hh : files.has (.ofText path) = true)
    (hs : textSuffixes.contains (Text.lower (Path.ofText path).suffix) = true)
    (ht : fileText files (Path.ofText path).text = .ok text) : readProfile files path time =
      .ok { url := .str ("file://" ++ path), fetchedAt := .str time, digest := .str (digestOf (.str text)),
            text := .str text } := by
  unfold readProfile
  dsimp only
  rw [hh, if_neg (by decide), hs, if_pos rfl, ht]
  rfl

/-- A file is only read. -/
theorem outcome_loadFile (path : String) (s : Machine) :
    outcome (loadFile path) s = (readProfile s.files path s.clock, s) := by
  unfold loadFile readProfile
  dsimp only
  rw [outcome_bind, outcome_has]
  dsimp only
  cases s.files.has (.ofText path) with
  | false => rfl
  | true =>
    simp only [Bool.not_true, Bool.false_eq_true, if_false]
    split
    · rw [outcome_bind, outcome_readFile]
      cases fileText s.files (Path.ofText path).text <;> rfl
    · rw [outcome_bind, outcome_readJson]
      cases fileJson s.files path <;> rfl

theorem outcome_load_of_file (folder : Path) {request : SchemaRequest} (h : request.file.filter (· ≠ "") = some path)
    (s : Machine) : outcome (load folder request) s = (readProfile s.files path s.clock, s) := by
  unfold load
  rw [h]
  exact outcome_loadFile path s

/-- A call that reads a file sends nothing and writes nothing. -/
theorem perform_of_file (folder : Path) (files : FileTree) (h : call.request.file.filter (· ≠ "") = some path) :
    call.perform folder files = ⟨call, files, readProfile files path call.time, [], files⟩ := by
  unfold Call.perform
  rw [outcome_load_of_file folder h]

/-- A call with nothing to ask fails. -/
theorem perform_of_nothing (folder : Path) (files : FileTree) (hfile : call.request.file.filter (· ≠ "") = none)
    (h : call.address = none) :
    call.perform folder files = ⟨call, files, .error (if call.request.url.isEmptyLike then .noSource else
      .shape (.noMember call.request.url.kindName "decode")), [], files⟩ := by
  unfold Call.address at h
  rw [hfile] at h
  unfold Call.perform load
  rw [hfile]
  dsimp only
  split
  · rfl
  next hne =>
    cases hurl : call.request.url with
    | str url =>
      rw [hurl] at h hne
      dsimp only at h
      split at h
      next hempty => exact absurd (by rw [hempty]; rfl) hne
      · cases h
    | _ => rfl

/-- A call that asks no address sends nothing and writes nothing. -/
theorem perform_of_address_none (h : call.address = none) :
    (call.perform folder files).posts = [] ∧ (call.perform folder files).after = files := by
  cases hfile : call.request.file.filter (· ≠ "") with
  | some path =>
    rw [perform_of_file folder files hfile]
    exact ⟨rfl, rfl⟩
  | none =>
    rw [perform_of_nothing folder files hfile h]
    exact ⟨rfl, rfl⟩

/-- A call that asks an address takes what is kept if it may, and else sends one request and keeps the description. -/
theorem perform_of_address (folder : Path) (files : FileTree) (h : call.address = some url) :
    call.perform folder files = match keptAt folder url with
      | .error e => ⟨call, files, .error (.address e), [], files⟩
      | .ok kept =>
        if call.request.allowsKept && !call.request.refresh && files.has kept then
          ⟨call, files, fileProfile files kept.text, [], files⟩
        else
          match answered url call.answer with
          | .error e => ⟨call, files, .error e, [Network.schemaPost url call.request.token], files⟩
          | .ok description =>
            let p := fetched url call.time description
            let (result, after) := keep files kept p
            let result := (result.map fun _ => p).mapError .file
            ⟨call, files, result, [Network.schemaPost url call.request.token], after⟩ := by
  unfold Call.address at h
  split at h
  next url' hfile hurl =>
    split at h
    · cases h
    next hne =>
      cases h
      have hload : ∀ s, outcome (load folder call.request) s = outcome (loadUrl folder url call.request) s := by
        intro s
        have hempty : (Json.str url).isEmptyLike = false := by simpa [Json.isEmptyLike] using hne
        unfold load
        rw [hfile, hurl]
        simp only [hempty, Bool.false_eq_true, if_false]
      unfold Call.perform
      rw [hload, outcome_loadUrl]
      cases keptAt folder url with
      | error e => rfl
      | ok kept =>
        dsimp only
        split
        · rfl
        · rw [outcome_fetch rfl]
          cases answered url call.answer <;> rfl
  · cases h

end FixtureCheck.SchemaStore
