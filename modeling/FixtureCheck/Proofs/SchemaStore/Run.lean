import FixtureCheck.Proofs.SchemaStore.Kept

/-!
# Runs of calls

What a call comes to on the files of a folder of profiles (`Keeps.perform_cases`) says what it does to them
(`Keeps.step`), and so which profiles every call of a run finds kept (`keeps_before`): those that were fetched last.
From that follow the requests of each call, what it returns and what it leaves (`call_of_run`), if the folder had
nothing in it at the beginning. The files are those of a `FileTree`, which takes names of any length and denies nothing.
-/

namespace FixtureCheck.SchemaStore

open Storage (FileTree Path IsName)
open Storage.FileTree (IsFileName)
open Network (Address Response)

variable {folder kept : Path} {url name : String} {p : Profile} {files start : FileTree} {call : Call} {e : Event}
  {profiles : String → Option Profile} {calls : List Call} {earlier later : List Event}

/-! ## Names of files -/

theorem isFileName_hostName (address : Address) : IsFileName (address.hostName ++ ".json") := by
  have hlength : 5 ≤ (address.hostName ++ ".json").length := by
    rw [String.length_append]
    exact Nat.le_add_left _ _
  refine ⟨⟨?_, ?_, ?_⟩, ?_⟩
  · intro h
    rw [h] at hlength
    exact absurd hlength (by decide)
  · intro h
    rw [h] at hlength
    exact absurd hlength (by decide)
  · rw [String.toList_append, List.mem_append, not_or]
    refine ⟨?_, by decide⟩
    unfold Address.hostName
    rw [String.toList_ofList]
    intro h
    obtain ⟨c, -, hc⟩ := List.mem_map.1 h
    split at hc
    · exact absurd hc (by decide)
    next hne => exact hne (by simp [hc])
  · intro h
    rw [h] at hlength
    exact absurd hlength (by decide)

/-- The answer of an address is kept under the name of its host. -/
theorem keptAt_of_address (folder : Path) {address : Address} (h : Address.ofText url = .ok address) :
    keptAt folder url = .ok (folder.child (address.hostName ++ ".json")) := by
  unfold keptAt
  rw [h, ok_bind, Path.join_ofText folder (isFileName_hostName address).1]
  rfl

theorem exists_of_keptAt (h : keptAt folder url = .ok kept) :
    ∃ address, Address.ofText url = .ok address ∧ kept = folder.child (address.hostName ++ ".json") := by
  obtain ⟨address, haddress, -⟩ := bind_eq_ok_iff.1 h
  rw [keptAt_of_address folder haddress] at h
  exact ⟨address, haddress, (Except.ok.inj h).symm⟩

/-! ## One call -/

/-- A call sends one request to its address, or none if the answer is kept and may be used. -/
theorem posts_perform (files : FileTree) (haddress : call.address = some url) (hkept : keptAt folder url = .ok kept) :
    (call.perform folder files).posts =
      if call.request.refresh || !call.request.allowsKept || !files.has kept then
        [Network.schemaPost url call.request.token]
      else [] := by
  rw [perform_of_address _ _ haddress, hkept]
  dsimp only
  cases call.request.allowsKept <;> cases call.request.refresh <;> cases files.has kept
  all_goals simp only [Bool.not_true, Bool.not_false, Bool.and_true, Bool.and_false, Bool.or_true, Bool.or_false,
    Bool.false_eq_true, if_true, if_false]
  all_goals cases answered url call.answer <;> rfl

/-- A call that sends nothing returns what is kept. -/
theorem result_perform (haddress : call.address = some url) (hkept : keptAt folder url = .ok kept)
    (hposts : (call.perform folder files).posts = []) :
    files.has kept = true ∧ (call.perform folder files).result = fileProfile files kept.text := by
  have husable : (call.request.allowsKept && !call.request.refresh && files.has kept) = true := by
    rw [posts_perform files haddress hkept] at hposts
    split at hposts
    · cases hposts
    next hsend =>
      simp only [Bool.or_eq_true, not_or, Bool.not_eq_true', Bool.not_eq_false] at hsend
      simp [hsend]
  rw [perform_of_address _ _ haddress, hkept]
  dsimp only
  rw [if_pos husable]
  exact ⟨by simp_all, rfl⟩

/-- **What a call comes to** on the files of a folder of profiles: it sends nothing and changes nothing, it fails and
changes nothing, or it keeps what it fetched. -/
theorem Keeps.perform_cases (hp : folder.IsProper) (hstart : HasNothingIn start folder)
    (h : Keeps start folder profiles files) (he : e = call.perform folder files) :
    (e.posts = [] ∧ e.after = files) ∨
    (∃ cause, e.result = .error cause ∧ e.after = files) ∨
    ∃ url name d, call.address = some url ∧ keptAt folder url = .ok (folder.child name) ∧ IsFileName name ∧
      answered url call.answer = .ok d ∧ e.posts = [Network.schemaPost url call.request.token] ∧
      e.result = .ok (fetched url call.time d) ∧
      Keeps start folder (fun n => if n = name then some (fetched url call.time d) else profiles n) e.after := by
  subst he
  cases haddress : call.address with
  | none => exact .inl (perform_of_address_none haddress)
  | some url =>
    rw [perform_of_address _ _ haddress]
    cases hkept : keptAt folder url with
    | error cause => exact .inl ⟨rfl, rfl⟩
    | ok kept =>
      obtain ⟨address, -, rfl⟩ := exists_of_keptAt hkept
      have hname := isFileName_hostName address
      dsimp only
      split
      · exact .inl ⟨rfl, rfl⟩
      · cases hd : answered url call.answer with
        | error cause => exact .inr (.inl ⟨cause, rfl, rfl⟩)
        | ok d =>
          dsimp only
          rcases h.keep hp hstart hname (fetched url call.time d) with ⟨cause, -, hkeep⟩ | ⟨after, hkeep, hafter⟩
          · rw [hkeep]
            exact .inr (.inl ⟨_, rfl, rfl⟩)
          · rw [hkeep]
            exact .inr (.inr ⟨url, _, d, rfl, hkept, hname, hd, rfl, rfl, hafter⟩)

/-- **A call fetched a profile**: it sent one request to its address, and the answer described the schema. -/
structure Event.Fetches (folder kept : Path) (e : Event) (url : String) (response : Response) (p : Profile) : Prop where
  address : e.call.address = some url
  path : keptAt folder url = .ok kept
  posts : e.posts = [Network.schemaPost url e.call.request.token]
  answer : e.call.answer = .ok response
  description : response.schema = .ok p.description
  profile : p = fetched url e.call.time p.description
  result : e.result = .ok p

theorem fetch_of_posts (h : e.posts = []) : e.fetch folder kept = none := by
  rw [Event.fetch, if_neg]
  exact fun hposts => hposts.1 h

theorem fetch_of_error {cause : LoadError} (h : e.result = .error cause) : e.fetch folder kept = none := by
  unfold Event.fetch
  rw [h]
  split <;> rfl

theorem fetch_of_ok {post : Post} (hposts : e.posts = [post]) (haddress : e.call.address = some url)
    (hkept : keptAt folder url = .ok kept) (hresult : e.result = .ok p) (path : Path) :
    e.fetch folder path = if path = kept then some p else none := by
  have hpath : e.call.keptAt folder = some kept := by
    rw [Call.keptAt, haddress, Option.bind_some, hkept]
    rfl
  unfold Event.fetch
  rw [hposts, hpath, hresult]
  by_cases h : path = kept
  · rw [if_pos ⟨by simp, by rw [h]⟩, if_pos h]
    rfl
  · rw [if_neg fun hand => h (Option.some.inj hand.2).symm, if_neg h]

theorem latestFetch_append (events : List Event) (e : Event) :
    latestFetch folder kept (events ++ [e]) = (e.fetch folder kept).or (latestFetch folder kept events) := by
  unfold latestFetch
  rw [List.reverse_append, List.reverse_singleton, List.singleton_append, List.findSome?_cons]
  cases e.fetch folder kept <;> rfl

/-- **A call keeps the profiles that were fetched last.** -/
theorem Keeps.step (hp : folder.IsProper) (hstart : HasNothingIn start folder) {log : List Event}
    (h : Keeps start folder (fun name => latestFetch folder (folder.child name) log) files)
    (he : e = call.perform folder files) :
    Keeps start folder (fun name => latestFetch folder (folder.child name) (log ++ [e])) e.after := by
  have hnothing : (∀ kept, e.fetch folder kept = none) → e.after = files →
      Keeps start folder (fun name => latestFetch folder (folder.child name) (log ++ [e])) e.after := by
    intro hfetch hafter
    rw [hafter]
    simpa only [latestFetch_append, hfetch, Option.none_or] using h
  rcases h.perform_cases hp hstart he with ⟨hposts, hafter⟩ | ⟨cause, hresult, hafter⟩ |
    ⟨url, name, d, haddress, hkept, hname, -, hposts, hresult, hafter⟩
  · exact hnothing (fun _ => fetch_of_posts hposts) hafter
  · exact hnothing (fun _ => fetch_of_error hresult) hafter
  · have hcall : e.call.address = some url := by
      rw [he]
      exact haddress
    convert hafter using 2 with n
    rw [latestFetch_append, fetch_of_ok hposts hcall hkept hresult]
    simp only [Path.child_inj]
    split <;> rfl

/-- Every call of a run finds the profiles kept that were fetched before it. -/
theorem Keeps.run (hp : folder.IsProper) (hstart : HasNothingIn start folder) :
    ∀ (calls : List Call) (files : FileTree) (log : List Event),
      Keeps start folder (fun name => latestFetch folder (folder.child name) log) files →
      ∀ earlier e later, run folder files calls = earlier ++ e :: later →
        Keeps start folder (fun name => latestFetch folder (folder.child name) (log ++ earlier)) e.before ∧
          e = e.call.perform folder e.before := by
  intro calls
  induction calls with
  | nil =>
    intro files log _ earlier e later hrun
    exact absurd hrun.symm (by simp [SchemaStore.run])
  | cons call calls ih =>
    intro files log h earlier e later hrun
    rw [SchemaStore.run] at hrun
    cases earlier with
    | nil =>
      obtain ⟨rfl, -⟩ := List.cons.inj hrun
      rw [List.append_nil]
      exact ⟨h, rfl⟩
    | cons first earlier =>
      obtain ⟨rfl, hrest⟩ := List.cons.inj hrun
      rw [List.append_cons]
      exact ih _ _ (h.step hp hstart rfl) earlier e later hrest

section

variable (hp : folder.IsProper) (hstart : HasNothingIn start folder)
  (hrun : run folder start calls = earlier ++ e :: later)
include hp hstart hrun

theorem keeps_before : Keeps start folder (fun name => latestFetch folder (folder.child name) earlier) e.before ∧
    e = e.call.perform folder e.before :=
  Keeps.run hp hstart calls start [] (.untouched fun _ _ => rfl) earlier e later hrun

/-- A call that fetches keeps the description in the answer of its address. -/
theorem exists_fetches (h : e.fetch folder kept = some p) : ∃ url response, e.Fetches folder kept url response p := by
  obtain ⟨hkeeps, he⟩ := keeps_before hp hstart hrun
  rcases hkeeps.perform_cases hp hstart he with ⟨hposts, -⟩ | ⟨cause, hresult, -⟩ |
    ⟨url, name, d, haddress, hkept, -, hd, hposts, hresult, -⟩
  · rw [fetch_of_posts hposts] at h
    cases h
  · rw [fetch_of_error hresult] at h
    cases h
  · rw [fetch_of_ok hposts haddress hkept hresult] at h
    split at h
    next hpath =>
      cases h
      cases hanswer : e.call.answer with
      | error cause =>
        rw [hanswer] at hd
        cases hd
      | ok response =>
        rw [hanswer] at hd
        exact ⟨url, response, haddress, hpath ▸ hkept, hposts, hanswer, mapError_eq_ok_iff.1 hd, rfl, hresult⟩
    · cases h

/-- The profile that was fetched last was fetched by some call. -/
theorem exists_of_latestFetch (h : latestFetch folder kept earlier = some p) :
    ∃ e' ∈ earlier, e'.fetch folder kept = some p ∧ ∃ url response, e'.Fetches folder kept url response p := by
  obtain ⟨e', hmem, hfetch⟩ := List.exists_of_findSome?_eq_some h
  rw [List.mem_reverse] at hmem
  obtain ⟨before, between, rfl⟩ := List.append_of_mem hmem
  rw [List.append_assoc, List.cons_append] at hrun
  exact ⟨e', hmem, hfetch, exists_fetches hp hstart hrun hfetch⟩

/-- **When a call asks its address**, once, and when it does not. -/
theorem posts_eq (haddress : e.call.address = some url) (hkept : keptAt folder url = .ok kept) :
    e.posts = if e.call.request.refresh || !e.call.request.allowsKept || !e.before.has kept then
      [Network.schemaPost url e.call.request.token] else [] := by
  have hposts := posts_perform e.before haddress hkept
  rwa [← (keeps_before hp hstart hrun).2] at hposts

/-- **A call that does not ask its address returns what was fetched last.** -/
theorem result_of_posts (haddress : e.call.address = some url) (hkept : keptAt folder url = .ok kept)
    (hposts : e.posts = []) : ∃ p, latestFetch folder kept earlier = some p ∧ e.result = .ok p := by
  obtain ⟨hkeeps, he⟩ := keeps_before hp hstart hrun
  obtain ⟨address, -, rfl⟩ := exists_of_keptAt hkept
  have hname := isFileName_hostName address
  have hresult := result_perform haddress hkept (he ▸ hposts)
  rw [← he] at hresult
  rw [hkeeps.has hp hstart hname] at hresult
  obtain ⟨p, hlatest⟩ := Option.isSome_iff_exists.1 hresult.1
  obtain ⟨_, -, -, url', response, hfetch⟩ := exists_of_latestFetch hp hstart hrun hlatest
  refine ⟨p, hlatest, ?_⟩
  rw [hresult.2]
  refine fileProfile_of_read ?_ (hkeeps.read hp hname hlatest)
  rw [hfetch.profile]
  exact isProper_toJson_fetched (Network.Response.isProper_of_schema hfetch.description)

/-- **A call that fails changes nothing.** -/
theorem after_of_error {cause : LoadError} (h : e.result = .error cause) : e.after = e.before := by
  obtain ⟨hkeeps, he⟩ := keeps_before hp hstart hrun
  rcases hkeeps.perform_cases hp hstart he with ⟨-, hafter⟩ | ⟨-, -, hafter⟩ |
    ⟨url, name, d, -, -, -, -, -, hresult, -⟩
  · exact hafter
  · exact hafter
  · rw [h] at hresult
    cases hresult

end

/-- A call that asks an address keeps what the answer describes, if the folder can be made. -/
theorem Keeps.fetch_of_answered (hp : folder.IsProper) (hstart : HasNothingIn start folder)
    (h : Keeps start folder profiles files) (haddress : call.address = some url) (hkept : keptAt folder url = .ok kept)
    (hposts : (call.perform folder files).posts ≠ []) {d : Json} (hd : answered url call.answer = .ok d)
    {made : FileTree} (hmade : files.makeFolders folder = .ok made) (path : Path) :
    (call.perform folder files).fetch folder path = if path = kept then some (fetched url call.time d) else none := by
  have hperform := perform_of_address folder files haddress
  obtain ⟨address, -, rfl⟩ := exists_of_keptAt hkept
  rw [hkept, hd] at hperform
  dsimp only at hperform
  split at hperform
  · rw [hperform] at hposts
    exact absurd rfl hposts
  · rcases h.keep hp hstart (isFileName_hostName address) (fetched url call.time d) with
      ⟨cause, hmade', -⟩ | ⟨after, hkeep, -⟩
    · rw [hmade'] at hmade
      cases hmade
    · rw [hkeep] at hperform
      rw [hperform]
      exact fetch_of_ok rfl haddress hkept rfl path

/-- **A call that comes right after one that fetched takes its profile**, if it may. -/
theorem run_pair (hp : folder.IsProper) (hstart : HasNothingIn start folder) (first second : Call) {url' : String}
    (hfirst : first.address = some url) (hkept : keptAt folder url = .ok kept) {d : Json}
    (hd : answered url first.answer = .ok d) {made : FileTree} (hmade : start.makeFolders folder = .ok made)
    (hsecond : second.address = some url') (hkept' : keptAt folder url' = .ok kept)
    (hallows : second.request.allowsKept = true) (hrefresh : second.request.refresh = false) :
    ∃ e e', run folder start [first, second] = [e, e'] ∧ e.call = first ∧ e'.call = second ∧
      latestFetch folder kept [e] = some (fetched url first.time d) ∧ e'.posts = [] ∧
      e'.result = .ok (fetched url first.time d) := by
  obtain ⟨e, he⟩ : ∃ e, e = first.perform folder start := ⟨_, rfl⟩
  obtain ⟨e', he'⟩ : ∃ e', e' = second.perform folder e.after := ⟨_, rfl⟩
  have hrun : run folder start [first, second] = [e] ++ e' :: [] := by
    rw [he', he]
    rfl
  have huntouched : Keeps start folder (fun _ => none) start := .untouched fun _ _ => rfl
  obtain ⟨address, -, rfl⟩ := exists_of_keptAt hkept
  have hname := isFileName_hostName address
  have hposts : e.posts ≠ [] := by
    rw [he, posts_perform start hfirst hkept, huntouched.has hp hstart hname]
    simp
  have hfetch := huntouched.fetch_of_answered hp hstart hfirst hkept (he ▸ hposts) hd hmade
  rw [← he] at hfetch
  have hlatest : latestFetch folder (folder.child (address.hostName ++ ".json")) [e] =
      some (fetched url first.time d) := by
    rw [← List.nil_append [e], latestFetch_append, hfetch, if_pos rfl]
    rfl
  have hcall : e'.call.address = some url' := by
    rw [he']
    exact hsecond
  have hnone : e'.posts = [] := by
    obtain ⟨hkeeps, -⟩ := keeps_before hp hstart hrun
    rw [posts_eq hp hstart hrun hcall hkept', hkeeps.has hp hstart hname, hlatest, he']
    show (if (second.request.refresh || !second.request.allowsKept || !true) = true then _ else _) = _
    rw [hallows, hrefresh]
    rfl
  obtain ⟨p, hp', hresult⟩ := result_of_posts hp hstart hrun hcall hkept' hnone
  rw [hlatest] at hp'
  cases hp'
  exact ⟨e, e', hrun, by rw [he]; rfl, by rw [he']; rfl, hlatest, hnone, hresult⟩

/-! ## A folder to start with -/

/-- The folder of a program that is started in a folder with nothing in it. -/
def emptyCache : Path := .ofText "cache"

theorem keptAt_emptyCache : keptAt emptyCache "http://a.test/x" = .ok (emptyCache.child "a.test.json") ∧
    keptAt emptyCache "http://a.test/y" = .ok (emptyCache.child "a.test.json") := by
  constructor <;> rfl

theorem isProper_emptyCache : emptyCache.IsProper := Storage.isProper_ofText "cache"

theorem makeFolders_emptyCache : ({} : FileTree).makeFolders emptyCache = .ok { folders := [["cache"]] } := rfl

theorem hasNothingIn_emptyCache : HasNothingIn {} emptyCache := by
  intro name hname
  have hnames : (emptyCache.child name).names = ["cache", name] := rfl
  constructor
  · have hlocate : ({} : FileTree).locate (emptyCache.child name) = .error .notFound := by
      rw [FileTree.locate, hnames]
      rfl
    unfold FileTree.has FileTree.find
    rw [Path.ofText_text (isProper_emptyCache.child hname.1), hlocate]
    cases (emptyCache.child name).text.isEmpty <;> rfl
  · intro made hmade
    obtain rfl := Except.ok.inj (makeFolders_emptyCache.symm.trans hmade)
    obtain ⟨-, q, hq⟩ := FileTree.isAt_of_makeFolders hmade
    have hlocate : ({ folders := [["cache"]] } : FileTree).locate emptyCache = .ok ["cache"] := rfl
    obtain rfl := Except.ok.inj (hlocate.symm.trans hq.locate)
    rw [Bool.eq_false_iff, ne_eq, hq.has_child isProper_emptyCache hname, not_not]
    simp [FileTree.entryAt, FileTree.top]

/-- A call that asks an address, and the address answers with a value. -/
def asking (url : String) (body : Json) : Call where
  request := { url := .str url }
  time := "2000-01-01T00:00:00+00:00"
  answer := .ok { status := 200, body := body.compact, url, contentType := none }

/-- A value that is proper is taken from the answer as it is. -/
theorem answered_asking (url : String) {d : Json} (hd : d.IsProper) :
    answered url (asking url (.obj [("data", d)])).answer = .ok d := by
  have hbody : (Json.obj [("data", d)]).IsProper := by
    refine .obj (by simp) ?_
    intro entry he
    rw [List.mem_singleton.1 he]
    exact hd
  refine mapError_eq_ok_iff.2 (Network.Response.schema_eq_ok_iff.2
    ⟨rfl, _, hbody.parse_render Json.isBlank_compactLayout, ?_, ?_⟩)
  · rfl
  · rfl

/-! ## The calls of a run -/

/-- **Runs of calls on a folder with nothing in it.** A call that asks an address sends it one request, unless its
answer is kept and may be used. If it sends none, it returns the profile that was fetched last of those with the same
path, part by part. If it fails, all files and folders stay as they are. -/
theorem call_of_run (hp : folder.IsProper) (hstart : HasNothingIn start folder)
    (hrun : run folder start calls = earlier ++ e :: later) (haddress : e.call.address = some url)
    (hkept : keptAt folder url = .ok kept) :
    e.posts = (if e.call.request.refresh || !e.call.request.allowsKept || !e.before.has kept then
      [Network.schemaPost url e.call.request.token] else []) ∧
    (e.posts = [] → ∃ p, latestFetch folder kept earlier = some p ∧ e.result = .ok p) ∧
    ∀ cause, e.result = .error cause → e.after = e.before :=
  ⟨posts_eq hp hstart hrun haddress hkept, result_of_posts hp hstart hrun haddress hkept,
    fun _ => after_of_error hp hstart hrun⟩

/-- The second one of two calls to an address. -/
theorem call_of_run_again : ∃ e e', run emptyCache {} [asking "http://a.test/x" (.obj [("data", .null)]),
      asking "http://a.test/x" .null] = [e, e'] ∧
    e'.posts = [] ∧ ∃ p, latestFetch emptyCache (emptyCache.child "a.test.json") [e] = some p ∧ e'.result = .ok p := by
  obtain ⟨e, e', hrun, -, hcall, -, hposts, -⟩ := run_pair isProper_emptyCache hasNothingIn_emptyCache
    (asking "http://a.test/x" (.obj [("data", .null)])) (asking "http://a.test/x" .null) rfl
    keptAt_emptyCache.1 (answered_asking _ .null) makeFolders_emptyCache rfl keptAt_emptyCache.1 rfl rfl
  have hshape : run emptyCache {} [asking "http://a.test/x" (.obj [("data", .null)]), asking "http://a.test/x" .null] =
      [e] ++ e' :: [] := hrun
  have hspec := call_of_run isProper_emptyCache hasNothingIn_emptyCache hshape (by rw [hcall]; rfl) keptAt_emptyCache.1
  exact ⟨e, e', hrun, hposts, hspec.2.1 hposts⟩

end FixtureCheck.SchemaStore
