import FixtureCheck.Proofs.SchemaStore.Run

/-!
# Where profiles come from

Every profile that a call of a run returns was fetched from an address with the same path of a kept answer, and so from
the same host (`origin_of_profile`); it need not be the same address (`profile_of_other_address`).

An answer that is kept described a schema in the sense of `Response.schema_eq_ok_iff`; nothing checks that the schema
can be built. Whether it can is told by the description (`kept_answer_of_run`, `kept_answer_without_schema`).
-/

namespace FixtureCheck.SchemaStore

open Storage (FileTree Path)
open Network (Address Response)

variable {folder kept : Path} {url : String} {p : Profile} {start : FileTree} {e : Event} {calls : List Call}
  {earlier later : List Event}

/-! ## Hosts -/

theorem not_mem_authority {address : Address} (h : Address.ofText url = .ok address) :
    '/' ∉ address.authority.toList := by
  unfold Address.ofText at h
  dsimp only at h
  split at h
  all_goals
    obtain ⟨-, -, h⟩ := bind_eq_ok_iff.1 h
    obtain ⟨-, h⟩ := of_guard h
    cases h
    rw [String.toList_ofList]
  · intro hc
    exact absurd (List.all_eq_true.1 List.all_takeWhile _ hc) (by decide)
  · simp

/-- The text of an authority before its first colon. -/
def hostText (address : Address) : List Char := address.authority.toList.takeWhile (· != ':')

/-- Addresses with the same host name have the same authority before its first colon, if they have one. -/
theorem hostText_of_hostName {url' : String} {address address' : Address} (h : Address.ofText url = .ok address)
    (h' : Address.ofText url' = .ok address') (hname : address'.hostName = address.hostName)
    (hne : address.authority ≠ "") (hne' : address'.authority ≠ "") : hostText address' = hostText address := by
  have hshape : ∀ {url : String} {address : Address}, Address.ofText url = .ok address → address.authority ≠ "" →
      address.hostName = String.ofList (hostText address) := by
    intro url address h hne
    have hempty : address.authority.isEmpty = false := by simpa using hne
    unfold Address.hostName hostText
    rw [hempty]
    simp only [Bool.false_eq_true, if_false]
    congr 1
    refine (List.map_congr_left ?_).trans (List.map_id _)
    intro c hc
    have hslash : c ≠ '/' := by
      rintro rfl
      exact not_mem_authority h ((List.takeWhile_sublist _).subset hc)
    rw [if_neg (by simpa using hslash)]
    rfl
  rw [hshape h hne, hshape h' hne'] at hname
  exact String.ofList_injective hname

/-- Addresses with the same path of a kept answer have the same host. -/
theorem host_of_keptAt {url' : String} (h : keptAt folder url = .ok kept) (h' : keptAt folder url' = .ok kept) :
    ∃ address address', Address.ofText url = .ok address ∧ Address.ofText url' = .ok address' ∧
      address'.hostName = address.hostName ∧
      (address.authority ≠ "" → address'.authority ≠ "" → hostText address' = hostText address) := by
  obtain ⟨address, haddress, rfl⟩ := exists_of_keptAt h
  obtain ⟨address', haddress', hkept⟩ := exists_of_keptAt h'
  have hname : address'.hostName = address.hostName := (String.append_left_inj ".json").1 (Path.child_inj.1 hkept).symm
  exact ⟨address, address', haddress, haddress', hname, hostText_of_hostName haddress haddress' hname⟩

/-! ## The origin of a profile -/

/-- A profile that is returned was fetched by this call or by an earlier one, and by this one if it sent a request. -/
theorem exists_fetches_of_result (hp : folder.IsProper) (hstart : HasNothingIn start folder)
    (hrun : run folder start calls = earlier ++ e :: later) (haddress : e.call.address = some url)
    (hresult : e.result = .ok p) : ∃ e' ∈ earlier ++ [e], ∃ kept url' response, (e.posts ≠ [] → e' = e) ∧
      keptAt folder url = .ok kept ∧ e'.Fetches folder kept url' response p := by
  cases hkept : keptAt folder url with
  | error cause =>
    have he := (keeps_before hp hstart hrun).2
    rw [perform_of_address _ _ haddress, hkept] at he
    rw [he] at hresult
    cases hresult
  | ok kept =>
    by_cases hposts : e.posts = []
    · obtain ⟨p', hlatest, hresult'⟩ := result_of_posts hp hstart hrun haddress hkept hposts
      rw [hresult] at hresult'
      cases hresult'
      obtain ⟨e', hmem, -, url', response, hfetch⟩ := exists_of_latestFetch hp hstart hrun hlatest
      exact ⟨e', List.mem_append_left _ hmem, kept, url', response, fun hne => absurd hposts hne, rfl, hfetch⟩
    · have hfetch : e.fetch folder kept = some p := by
        rw [Event.fetch, if_pos ⟨hposts, by rw [Call.keptAt, haddress, Option.bind_some, hkept]; rfl⟩, hresult]
        rfl
      obtain ⟨url', response, hfetch⟩ := exists_fetches hp hstart hrun hfetch
      exact ⟨e, by simp, kept, url', response, fun _ => rfl, rfl, hfetch⟩

/-- **A profile that is returned is what an address of the same host answered** to a request of this call or of an
earlier one, and of this call if it sent one: it has the address, and the description in the answer. -/
theorem origin_of_profile (hp : folder.IsProper) (hstart : HasNothingIn start folder)
    (hrun : run folder start calls = earlier ++ e :: later) (haddress : e.call.address = some url)
    (hresult : e.result = .ok p) : ∃ e' ∈ earlier ++ [e], ∃ kept url' response, (e.posts ≠ [] → e' = e) ∧
      keptAt folder url = .ok kept ∧ e'.Fetches folder kept url' response p ∧ p.url = .str url' ∧
      ∃ address address', Address.ofText url = .ok address ∧ Address.ofText url' = .ok address' ∧
        address'.hostName = address.hostName ∧
        (address.authority ≠ "" → address'.authority ≠ "" → hostText address' = hostText address) := by
  obtain ⟨e', hmem, kept, url', response, hself, hkept, hfetch⟩ :=
    exists_fetches_of_result hp hstart hrun haddress hresult
  have hurl : p.url = .str url' := by
    rw [hfetch.profile]
    rfl
  exact ⟨e', hmem, kept, url', response, hself, hkept, hfetch, hurl, host_of_keptAt hkept hfetch.path⟩

/-- Calls to two addresses of a host, with different answers. -/
def twoAddresses : List Call := [
  asking "http://a.test/x" (.obj [("data", .obj [("n", .int 1)])]),
  asking "http://a.test/y" (.obj [("data", .obj [("n", .int 2)])])]

theorem exists_run_twoAddresses : ∃ e e', run emptyCache {} twoAddresses = [e] ++ e' :: [] ∧
    e'.call.address = some "http://a.test/y" ∧
    e'.result = .ok (fetched "http://a.test/x" "2000-01-01T00:00:00+00:00" (.obj [("n", .int 1)])) := by
  have hproper : (Json.obj [("n", .int 1)]).IsProper := by
    refine .obj (by simp) ?_
    intro entry he
    rw [List.mem_singleton.1 he]
    exact .int 1
  obtain ⟨e, e', hrun, -, hcall, -, -, hresult⟩ := run_pair isProper_emptyCache hasNothingIn_emptyCache
    (asking "http://a.test/x" (.obj [("data", .obj [("n", .int 1)])]))
    (asking "http://a.test/y" (.obj [("data", .obj [("n", .int 2)])])) rfl keptAt_emptyCache.1
    (answered_asking _ hproper) makeFolders_emptyCache rfl keptAt_emptyCache.2 rfl rfl
  exact ⟨e, e', hrun, by rw [hcall]; rfl, hresult⟩

theorem origin_of_second_profile : ∃ e e' p, run emptyCache {} twoAddresses = [e] ++ e' :: [] ∧ e'.result = .ok p ∧
    ∃ origin ∈ [e] ++ [e'], ∃ kept url' response, origin.Fetches emptyCache kept url' response p ∧
      p.url = .str url' := by
  obtain ⟨e, e', hrun, haddress, hresult⟩ := exists_run_twoAddresses
  obtain ⟨origin, hmem, kept, url', response, -, -, hfetch, hurl, -⟩ :=
    origin_of_profile isProper_emptyCache hasNothingIn_emptyCache hrun haddress hresult
  exact ⟨e, e', _, hrun, hresult, origin, hmem, kept, url', response, hfetch, hurl⟩

/-- **A call can return the profile of another address of the same host.** -/
theorem profile_of_other_address : ∃ e e' p, run emptyCache {} twoAddresses = [e] ++ e' :: [] ∧
    e'.call.address = some "http://a.test/y" ∧ e'.result = .ok p ∧ p.url = .str "http://a.test/x" ∧
    p.url ≠ .str "http://a.test/y" ∧ p.description = .obj [("n", .int 1)] := by
  obtain ⟨e, e', hrun, haddress, hresult⟩ := exists_run_twoAddresses
  refine ⟨e, e', _, hrun, haddress, hresult, rfl, ?_, rfl⟩
  simp [fetched]

/-! ## Answers that are kept -/

/-- A profile that was fetched can be built if its description can. -/
theorem Event.Fetches.build_iff {url' : String} {response : Response} (h : e.Fetches folder kept url' response p)
    (schema : GraphQL.Schema) : p.build = .ok schema ↔ GraphQL.schemaOfDescription p.description = .ok schema := by
  have htext : p.text = .null := by
    rw [h.profile]
    rfl
  unfold Profile.build Profile.schema
  rw [mapError_eq_ok_iff, htext]

theorem latestFetch_eq_none_iff {events : List Event} :
    latestFetch folder kept events = none ↔ ∀ e ∈ events, e.fetch folder kept = none := by
  simp [latestFetch]

/-- **Answers that are kept.** As long as no answer was kept at its path, a call asks its address. A call that sends no
request returns the profile that an earlier one fetched; its answer had the status 200 and was an object with data and
no errors, and the profile can be built if the data describes a schema. An answer of any other kind is not kept: the
call fails, and all files and folders stay as they are. -/
theorem kept_answer_of_run (hp : folder.IsProper) (hstart : HasNothingIn start folder)
    (hrun : run folder start calls = earlier ++ e :: later) (haddress : e.call.address = some url)
    (hkept : keptAt folder url = .ok kept) :
    ((∀ e' ∈ earlier, e'.fetch folder kept = none) → e.posts = [Network.schemaPost url e.call.request.token]) ∧
    (e.posts = [] → ∃ e' ∈ earlier, ∃ url' response p, e'.Fetches folder kept url' response p ∧ e.result = .ok p ∧
      response.status = 200 ∧ (∃ entries, Json.parse response.body = .ok (.obj entries) ∧
        Json.lookup entries "errors" = none ∧ Json.lookup entries "data" = some p.description) ∧
      ∀ schema, p.build = .ok schema ↔ GraphQL.schemaOfDescription p.description = .ok schema) ∧
    (e.posts ≠ [] → (∀ response, e.call.answer = .ok response → ∀ d, response.schema ≠ .ok d) →
      (∃ cause, e.result = .error cause) ∧ e.after = e.before ∧ e.fetch folder kept = none) := by
  refine ⟨?_, ?_, ?_⟩
  · intro hnone
    have hlatest := latestFetch_eq_none_iff.2 hnone
    obtain ⟨address, -, rfl⟩ := exists_of_keptAt hkept
    rw [posts_eq hp hstart hrun haddress hkept,
      (keeps_before hp hstart hrun).1.has hp hstart (isFileName_hostName address), hlatest]
    simp
  · intro hposts
    obtain ⟨p, hlatest, hresult⟩ := result_of_posts hp hstart hrun haddress hkept hposts
    obtain ⟨e', hmem, -, url', response, hfetch⟩ := exists_of_latestFetch hp hstart hrun hlatest
    obtain ⟨hstatus, hentries⟩ := Response.schema_eq_ok_iff.1 hfetch.description
    exact ⟨e', hmem, url', response, p, hfetch, hresult, hstatus, hentries, hfetch.build_iff⟩
  · intro hposts hanswer
    cases hresult : e.result with
    | error cause => exact ⟨⟨cause, rfl⟩, after_of_error hp hstart hrun hresult, fetch_of_error hresult⟩
    | ok p =>
      obtain ⟨e', -, kept', url', response, hself, -, hfetch⟩ :=
        exists_fetches_of_result hp hstart hrun haddress hresult
      rw [hself hposts] at hfetch
      exact absurd hfetch.description (hanswer response hfetch.answer p.description)

/-- Two calls to an address that describes no schema at first. -/
def brokenFirst : List Call := [
  asking "http://a.test/x" (.obj [("data", .obj [])]),
  asking "http://a.test/x" (.obj [("data", .obj [("__schema", .obj [])])])]

theorem exists_run_brokenFirst : ∃ e e', run emptyCache {} brokenFirst = [e] ++ e' :: [] ∧
    e'.call = asking "http://a.test/x" (.obj [("data", .obj [("__schema", .obj [])])]) ∧ e'.posts = [] ∧
    e'.result = .ok (fetched "http://a.test/x" "2000-01-01T00:00:00+00:00" (.obj [])) := by
  obtain ⟨e, e', hrun, -, hcall, -, hposts, hresult⟩ := run_pair isProper_emptyCache hasNothingIn_emptyCache
    (asking "http://a.test/x" (.obj [("data", .obj [])]))
    (asking "http://a.test/x" (.obj [("data", .obj [("__schema", .obj [])])])) rfl keptAt_emptyCache.1
    (answered_asking _ (.obj List.nodup_nil (by simp))) makeFolders_emptyCache rfl keptAt_emptyCache.1 rfl rfl
  exact ⟨e, e', hrun, hcall, hposts, hresult⟩

theorem broken_answer_is_kept : ∃ e e' p, run emptyCache {} brokenFirst = [e] ++ e' :: [] ∧ e'.posts = [] ∧
    e'.result = .ok p ∧
    ∀ schema, p.build = .ok schema ↔ GraphQL.schemaOfDescription p.description = .ok schema := by
  obtain ⟨e, e', hrun, hcall, hposts, -⟩ := exists_run_brokenFirst
  have haddress : e'.call.address = some "http://a.test/x" := by
    rw [hcall]
    rfl
  obtain ⟨_, -, _, _, p, -, hresult, -, -, hbuild⟩ :=
    (kept_answer_of_run isProper_emptyCache hasNothingIn_emptyCache hrun haddress keptAt_emptyCache.1).2.1 hposts
  exact ⟨e, e', p, hrun, hposts, hresult, hbuild⟩

/-- **An answer can be kept that no schema can be built of**, and the next call does not ask again. -/
theorem kept_answer_without_schema : ∃ e e' p, run emptyCache {} brokenFirst = [e] ++ e' :: [] ∧
    e'.call.request.allowsKept = true ∧ e'.call.request.refresh = false ∧ e'.posts = [] ∧ e'.result = .ok p ∧
    ∃ cause, p.build = .error cause := by
  obtain ⟨e, e', hrun, hcall, hposts, hresult⟩ := exists_run_brokenFirst
  exact ⟨e, e', _, hrun, by rw [hcall]; rfl, by rw [hcall]; rfl, hposts, hresult, _, rfl⟩

end FixtureCheck.SchemaStore
