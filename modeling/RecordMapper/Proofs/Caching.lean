import RecordMapper.Proofs.CacheKeys
import RecordMapper.Proofs.EntryReading
import RecordMapper.Session.Basic

/-!
# The cache does not show

Sessions answer as if they had no cache. A history is a list of calls, each of one of several sessions;
their caches have nothing in memory at first, and either no directory or all the same one, in which nothing
is written but by them. Each program or error that a session answers with is the one that a session just
started with its configuration gives, whatever checks the scripts (`answers_uncached`). A cache is sound if
what it holds under the key of a request is the program of that request; a session keeps its cache sound, and
answers from a sound cache as without one (`generate_sound`).
-/

namespace RecordMapper.Proofs.Caching
open RecordMapper.Program (ScriptChecker)

/-! ## Histories -/

/-- What a session answers when it is asked for a program. -/
abbrev Answer := GraphResult FinishedProgram

/-- A call of a session. -/
inductive Call where
  | configure (config : Config)
  | generate (workspace : Json)
  | process (name : String) (document : Json)
  | reset

/-- The answer to a call, if it asks for a program, and the session afterwards. -/
def Call.perform [ScriptChecker] (s : Session) : Call → Option Answer × Session
  | .configure config => (none, s.configure config)
  | .generate workspace => (some (s.generate workspace).1, (s.generate workspace).2)
  | .process name document => (none, (s.process name document).1)
  | .reset => (none, s.reset)

/-- Sessions with the directory that all their caches have, if they have one. -/
structure Shared where
  sessions : List Session
  directory : Option Directory

/-- The cache that holds nothing, on a directory if there is one. -/
def newCache : Option Directory → Cache
  | none => .empty
  | some d => .onDirectory d

namespace Shared

/-- Sessions that start with their configurations. -/
def start (configs : List Config) (directory : Option Directory) : Shared :=
  ⟨configs.map fun config => .start config (newCache directory), directory⟩

/-- A call of one of the sessions. It finds the directory as the last call of any session left it. -/
def call [ScriptChecker] (i : Nat) (c : Call) (s : Shared) : Option Answer × Shared :=
  match s.sessions[i]? with
  | none => (none, s)
  | some session =>
    let (answer, session) := c.perform { session with cache := { session.cache with directory := s.directory } }
    (answer, ⟨s.sessions.set i session, session.cache.directory⟩)

/-- The answers to a history, each call that of the session at a place. -/
def answers [ScriptChecker] : List (Nat × Call) → Shared → List Answer
  | [], _ => []
  | (i, c) :: rest, s => (s.call i c).1.toList ++ answers rest (s.call i c).2

end Shared

/-- A workspace of which the program is asked for, and the configuration of the session at that time. -/
structure Request where
  config : Config
  workspace : Json

namespace Request

/-- What a session answers that was just started with the configuration. -/
def answer [ScriptChecker] (r : Request) : Answer := ((Session.start r.config .empty).generate r.workspace).1

/-- The bytes that are digested for the request. -/
def bytes (r : Request) : List UInt8 := Cache.keyBytes r.config.generator r.workspace.render

end Request

/-- The configuration of a session after a call. -/
def Call.configAfter (config : Config) : Call → Config
  | .configure config' => config'
  | _ => config

/-- What a call asks for. -/
def Call.request? (config : Config) : Call → Option Request
  | .generate workspace => some ⟨config, workspace⟩
  | _ => none

/-- What is asked for in a history of sessions with certain configurations at first. -/
def requests : List (Nat × Call) → List Config → List Request
  | [], _ => []
  | (i, c) :: rest, configs =>
    match configs[i]? with
    | none => requests rest configs
    | some config => (c.request? config).toList ++ requests rest (configs.set i (c.configAfter config))

/-! ## Requests and their keys -/

/-- Requests that digests and texts of workspaces tell apart. -/
structure Distinguished (rs : List Request) : Prop where
  digests : ∀ r ∈ rs, ∀ r' ∈ rs, Sha256.digest r.bytes = Sha256.digest r'.bytes → r.bytes = r'.bytes
  texts : ∀ r ∈ rs, ∀ r' ∈ rs, r.workspace.render = r'.workspace.render → r.workspace = r'.workspace

/-- The key of a request. -/
def Request.key (r : Request) : String := Cache.key r.config.generator r.workspace.render

theorem isKey_key (r : Request) : CacheKeys.IsKey r.key := ⟨r.bytes, rfl⟩

section

variable {rs : List Request}

/-- The bytes of a request tell all that decides its program. -/
theorem options_of_bytes (distinguished : Distinguished rs) {r r' : Request} (inside : r ∈ rs) (inside' : r' ∈ rs)
    (same : r.bytes = r'.bytes) : r.config.generator = r'.config.generator ∧ r.workspace = r'.workspace := by
  obtain ⟨options, texts⟩ := CacheKeys.keyBytes_injective same
  exact ⟨options, distinguished.texts r inside r' inside' texts⟩

variable [ScriptChecker]

theorem answer_eq (r : Request) : r.answer = Session.programOf r.config.generator r.workspace := by
  rw [Request.answer, Session.generate]
  simp only [Session.start, Cache.get, Cache.empty, List.lookup_nil, Cache.load]
  cases Session.programOf r.config.generator r.workspace <;> rfl

/-- What is found under one key answers any request with that key. -/
theorem answer_of_key (distinguished : Distinguished rs) {r r' : Request} (inside : r ∈ rs) (inside' : r' ∈ rs)
    (same : r.key = r'.key) : r.answer = r'.answer := by
  have digests := CacheKeys.digest_of_hexDigest same
  obtain ⟨options, workspaces⟩ :=
    options_of_bytes distinguished inside inside' (distinguished.digests r inside r' inside' digests)
  rw [answer_eq, answer_eq, options, workspaces]

/-! ## Sound caches -/

/-- A program that answers one of several requests, with its key. -/
def Made (rs : List Request) (key : String) (p : FinishedProgram) : Prop := ∃ r ∈ rs, r.key = key ∧ r.answer = .ok p

/-- A memory that holds nothing but programs of certain requests under their keys. -/
def Remembers (rs : List Request) (memory : List (String × FinishedProgram)) : Prop :=
  ∀ key p, memory.lookup key = some p → Made rs key p

/-- A directory in which the files of keys hold nothing but entries of certain requests, or no directory. -/
def Keeps (rs : List Request) (directory : Option Directory) : Prop :=
  ∀ d key text, directory = some d → CacheKeys.IsKey key → d.read? (Cache.fileOf key) = some text →
    ∃ p, Made rs key p ∧ text = Cache.entryText key p

/-- A cache that holds nothing but programs of certain requests under their keys. -/
structure Sound (rs : List Request) (c : Cache) : Prop where
  memory : Remembers rs c.memory
  files : Keeps rs c.directory

theorem remembers_put {memory : List (String × FinishedProgram)} (remembers : Remembers rs memory) {key : String}
    {p : FinishedProgram} (made : Made rs key p) : Remembers rs (putMember key p memory) := by
  intro key' p' found
  by_cases own : key' = key
  · subst own
    rw [lookup_putMember_self] at found
    cases found
    exact made
  · rw [lookup_putMember_of_ne own] at found
    exact remembers key' p' found

theorem keeps_write {directory : Option Directory} (keeps : Keeps rs directory) {key : String}
    (isKey : CacheKeys.IsKey key) {p : FinishedProgram} (made : Made rs key p) :
    Keeps rs (directory.map (Directory.write (Cache.fileOf key) (Cache.entryText key p))) := by
  intro d key' text written isKey' file
  obtain ⟨before, there, rfl⟩ := Option.map_eq_some_iff.mp written
  rcases CacheKeys.read_write isKey isKey' file with ⟨rfl, rfl⟩ | earlier
  · exact ⟨p, made, rfl⟩
  · exact keeps before key' text there isKey' earlier

/-- Looking a key up gives nothing but a program of a request with that key, and the cache stays sound. -/
theorem sound_get {c : Cache} (sound : Sound rs c) {key : String} (isKey : CacheKeys.IsKey key) :
    (∀ p, (c.get key).1 = some p → Made rs key p) ∧ Sound rs (c.get key).2 := by
  obtain ⟨memory, directory⟩ := c
  simp only [Cache.get]
  cases remembered : memory.lookup key with
  | some p =>
    refine ⟨fun _ found => ?_, sound⟩
    cases found
    exact sound.memory key p remembered
  | none =>
    simp only [Cache.load]
    cases directory with
    | none => exact ⟨(fun _ found => nomatch found), sound⟩
    | some d =>
      cases file : d.read? (Cache.fileOf key) with
      | none =>
        simp only [file]
        exact ⟨(fun _ found => nomatch found), sound⟩
      | some text =>
        -- the file holds an entry of this key, so it is neither removed nor left alone
        obtain ⟨p, made, rfl⟩ := sound.files d key text rfl isKey file
        simp only [file, EntryReading.entry_entryText, if_true]
        refine ⟨fun _ found => ?_, remembers_put sound.memory made, sound.files⟩
        cases found
        exact made

/-- A cache stays sound if the program of a request is put into it. -/
theorem sound_set {c : Cache} (sound : Sound rs c) {key : String} (isKey : CacheKeys.IsKey key) {p : FinishedProgram}
    (made : Made rs key p) : Sound rs (c.set key p) :=
  ⟨remembers_put sound.memory made, keeps_write sound.files isKey made⟩

/-! ## Calls -/

/-- A session with a sound cache answers a request as if it had no cache, and keeps its cache sound and its
configuration. -/
theorem generate_sound (distinguished : Distinguished rs) {s : Session} (sound : Sound rs s.cache) {r : Request}
    (inside : r ∈ rs) (config : s.config = r.config) :
    (s.generate r.workspace).1 = r.answer ∧ Sound rs (s.generate r.workspace).2.cache ∧
      (s.generate r.workspace).2.config = r.config := by
  obtain ⟨hits, stays⟩ := sound_get sound (isKey_key r)
  have key : Cache.key s.config.generator r.workspace.render = r.key := by rw [config, Request.key]
  have answer := answer_eq r
  rw [← config] at answer
  simp only [Session.generate, key]
  cases looked : s.cache.get r.key with
  | mk found cache =>
    rw [looked] at hits stays
    cases found with
    | some p =>
      obtain ⟨r', inside', same, answer'⟩ := hits p rfl
      exact ⟨by rw [answer_of_key distinguished inside inside' same.symm, answer'], stays, config⟩
    | none =>
      cases made : Session.programOf s.config.generator r.workspace with
      | error e => exact ⟨by rw [answer, made], stays, config⟩
      | ok p =>
        rw [made] at answer
        exact ⟨answer.symm, sound_set stays (isKey_key r) ⟨r, inside, rfl, answer⟩, config⟩

/-- What a call does to a session with a sound cache. -/
theorem perform_sound (distinguished : Distinguished rs) {s : Session} (sound : Sound rs s.cache) (c : Call)
    (asked : ∀ r ∈ c.request? s.config, r ∈ rs) :
    (c.perform s).1 = (c.request? s.config).map Request.answer ∧ Sound rs (c.perform s).2.cache ∧
      (c.perform s).2.config = c.configAfter s.config := by
  cases c with
  | configure config => exact ⟨rfl, sound, rfl⟩
  | generate workspace =>
    obtain ⟨answer, stays, config⟩ := generate_sound distinguished sound (asked ⟨s.config, workspace⟩ rfl) rfl
    exact ⟨congrArg some answer, stays, config⟩
  | process name document => exact ⟨rfl, sound, rfl⟩
  | reset => exact ⟨rfl, sound, rfl⟩

/-! ## Histories without caches -/

/-- Sessions with certain configurations of which each has a sound cache on the directory. -/
structure Agrees (rs : List Request) (s : Shared) (configs : List Config) : Prop where
  configs : s.sessions.map Session.config = configs
  memories : ∀ session ∈ s.sessions, Remembers rs session.cache.memory
  files : Keeps rs s.directory

theorem agrees_start (configs : List Config) {directory : Option Directory}
    (unwritten : ∀ d, directory = some d → ∀ bytes, d.read? (Cache.fileOf (Sha256.hexDigest bytes)) = none) :
    Agrees rs (Shared.start configs directory) configs where
  configs := by
    rw [Shared.start, List.map_map]
    exact List.map_id _
  memories := by
    intro session inside
    obtain ⟨config, _, rfl⟩ := List.mem_map.mp inside
    cases directory <;> exact fun _ _ found => nomatch found
  files := by
    rintro d key text same ⟨bytes, rfl⟩ file
    rw [unwritten d same bytes] at file
    cases file

theorem agrees_call (distinguished : Distinguished rs) {s : Shared} {configs : List Config} (agrees : Agrees rs s configs)
    {i : Nat} {config : Config} (place : configs[i]? = some config) (c : Call) (asked : ∀ r ∈ c.request? config, r ∈ rs) :
    (s.call i c).1 = (c.request? config).map Request.answer ∧
      Agrees rs (s.call i c).2 (configs.set i (c.configAfter config)) := by
  rw [← agrees.configs, List.getElem?_map] at place
  obtain ⟨session, there, rfl⟩ := Option.map_eq_some_iff.mp place
  have sound : Sound rs { session.cache with directory := s.directory } :=
    ⟨agrees.memories session (List.mem_of_getElem? there), agrees.files⟩
  obtain ⟨answer, stays, config⟩ := perform_sound distinguished
    (s := { session with cache := { session.cache with directory := s.directory } }) sound c asked
  simp only [Shared.call, there]
  refine ⟨answer, ?_, ?_, stays.files⟩
  · rw [List.map_set, agrees.configs, config]
  · intro session' inside
    rcases List.mem_or_eq_of_mem_set inside with old | rfl
    · exact agrees.memories session' old
    · exact stays.memory

theorem answers_eq (distinguished : Distinguished rs) {s : Shared} {configs : List Config} (agrees : Agrees rs s configs)
    (history : List (Nat × Call)) (asked : ∀ r ∈ requests history configs, r ∈ rs) :
    s.answers history = (requests history configs).map Request.answer := by
  induction history generalizing s configs with
  | nil => rfl
  | cons first rest ih =>
    obtain ⟨i, c⟩ := first
    rw [Shared.answers]
    rw [requests] at asked ⊢
    cases place : configs[i]? with
    | none =>
      have nobody : s.sessions[i]? = none := by
        have same := place
        rw [← agrees.configs, List.getElem?_map] at same
        exact Option.map_eq_none_iff.mp same
      rw [place] at asked
      have idle : s.call i c = (none, s) := by rw [Shared.call, nobody]
      rw [idle]
      exact ih agrees asked
    | some config =>
      rw [place] at asked
      obtain ⟨here, later⟩ := List.forall_mem_append.mp asked
      obtain ⟨answer, agrees'⟩ := agrees_call distinguished agrees place c fun r one => here r (Option.mem_toList.mpr one)
      rw [answer, ih agrees' later, List.map_append]
      cases c.request? config <;> rfl

end

/-- Whatever is called on sessions that start with nothing in memory, and with no directory or with one in
which no file of a key is yet, each program or error is what a session answers that was just started with
the configuration, as long as the digests of the requests do not collide and the texts of their workspaces
differ as these do. This is so for every checker of scripts, since what it finds depends on the script alone.
The digested bytes of a request tell its options and its workspace. -/
theorem answers_uncached [ScriptChecker] (configs : List Config) (directory : Option Directory)
    (history : List (Nat × Call)) (distinguished : Distinguished (requests history configs))
    (unwritten : ∀ d, directory = some d → ∀ bytes, d.read? (Cache.fileOf (Sha256.hexDigest bytes)) = none) :
    (Shared.start configs directory).answers history = (requests history configs).map Request.answer ∧
      ∀ r ∈ requests history configs, ∀ r' ∈ requests history configs, r.bytes = r'.bytes →
        r.config.generator = r'.config.generator ∧ r.workspace = r'.workspace := by
  refine ⟨answers_eq distinguished (agrees_start configs unwritten) history fun _ inside => inside, ?_⟩
  intro r inside r' inside' same
  exact options_of_bytes distinguished inside inside' same

/-- A session for each of the two targets. -/
def bothTargets : List Config := [.default, ⟨{ GeneratorConfig.default with target := .javaScript }, .default⟩]

/-- Programs of the empty workspace for both targets, a failure, and the first session with another target. -/
def visits : List (Nat × Call) :=
  [(0, .generate (.arr [])), (1, .generate (.arr [])), (0, .generate .null), (0, .process "a" .null), (0, .reset),
    (0, .configure ⟨{ GeneratorConfig.default with target := .javaScript }, .default⟩), (0, .generate (.arr []))]

/-- The last request finds in the directory what the other session wrote there, and no program has faults. -/
theorem visits_uncached :
    Distinguished (requests visits bothTargets) ∧
    (∀ bytes, (Directory.freshNamed "cache").read? (Cache.fileOf (Sha256.hexDigest bytes)) = none) ∧
    (Shared.start bothTargets (some (.freshNamed "cache"))).answers visits =
      (requests visits bothTargets).map Request.answer ∧
    ((Shared.start bothTargets (some (.freshNamed "cache"))).answers visits).map
      (fun answer => answer.toOption.map (·.errors)) = [some [], some [], none, some []] := by
  have distinguished : Distinguished (requests visits bothTargets) := by
    constructor
    · decide +kernel
    · have shapes : ∀ r ∈ requests visits bothTargets, r.workspace = .arr [] ∨ r.workspace = .null := by
        simp [requests, visits, bothTargets, Call.request?, Call.configAfter]
      intro r inside r' inside' same
      rcases shapes r inside with list | null <;> rcases shapes r' inside' with list' | null'
      · rw [list, list']
      · rw [list, null'] at same
        exact absurd same (by decide)
      · rw [null, list'] at same
        exact absurd same (by decide)
      · rw [null, null']
  have unwritten (bytes : List UInt8) := CacheKeys.read_freshNamed ⟨bytes, rfl⟩ "cache"
  have uncached := (answers_uncached bothTargets (some (.freshNamed "cache")) visits distinguished
    fun _ same bytes => Option.some.inj same ▸ unwritten bytes).1
  refine ⟨distinguished, unwritten, uncached, ?_⟩
  rw [uncached, List.map_map, Function.comp_def]
  simp only [answer_eq]
  decide +kernel

end RecordMapper.Proofs.Caching
