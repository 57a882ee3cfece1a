import Curation.CommandLine.Run
import Curation.Proofs.Results

/-! How many workers a server is started with. The settings are loaded only if SQLite has a single worker in them,
    but the options of the command that starts the server are not measured against that rule. -/

namespace Curation

namespace Settings

variable {sources : Sources} {s : Settings}

theorem brokenRule?_of_load (h : load sources = .ok s) : s.brokenRule? = none := by
  obtain ⟨read, -, h⟩ := bind_eq_ok.mp h
  cases hrule : read.brokenRule? with
  | some text =>
    rw [hrule] at h
    cases h
  | none =>
    rw [hrule] at h
    cases h
    exact hrule

/-- Settings that have been loaded have at most one worker on SQLite. -/
theorem workers_le_one (h : load sources = .ok s) (hsqlite : s.isSqlite = true) : s.workers ≤ 1 := by
  refine Int.not_lt.mp fun hmany => ?_
  have hbroken : (decide (1 < s.workers) && s.isSqlite) = true := by simp [hmany, hsqlite]
  have hrule := brokenRule?_of_load h
  rw [brokenRule?, if_pos hbroken] at hrule
  cases hrule

end Settings

namespace CommandLine

variable {sh : Shell} {words : List String} {i : Installation} {s : Settings} {w : Words} {v : Server}

namespace Words

variable {name value : String} {options : List Opt}

theorem mem_of_value? (h : w.value? name = some value) : (name, value) ∈ w.options := by
  obtain ⟨before, after, heq, -⟩ := List.lookup_eq_some_iff.mp h
  exact List.mem_reverse.mp (heq ▸ List.mem_append_right _ List.mem_cons_self)

/-- If no option has a bad integer, every option that should be one can be read as one. -/
theorem integer?_of_badInteger? (name : String) (h : w.badInteger? options = none)
    (hkind : (options.any fun o => o.name == name && o.kind == .integer) = true) :
    ∃ n, w.integer? name = .ok n := by
  cases hvalue : w.value? name with
  | none => exact ⟨none, by simp only [integer?, hvalue]⟩
  | some value =>
    have hread := List.findSome?_eq_none_iff.mp h _ (mem_of_value? hvalue)
    simp only [hkind, if_true] at hread
    split at hread
    · cases hread
    · exact ⟨_, ‹_›⟩

theorem badInteger?_of_check {c : Command} (h : w.check c = .ok ()) : w.badInteger? c.options = none := by
  simp only [check] at h
  split at h
  · cases h
  all_goals assumption

end Words

/-! ### The command line that starts a server -/

/-- Words that no options precede are read as they stand, without the two dashes that may stand before them. -/
theorem readWords_unmixed {options : List Opt} {rest : List String}
    (h : readWords options false words = .ok { rest }) : words = rest ∨ words = "--" :: rest := by
  cases words with
  | nil => cases h; exact Or.inl rfl
  | cons word after =>
    simp only [readWords] at h
    split at h
    · rename_i hdashes
      cases h
      exact Or.inr (by rw [hdashes])
    split at h
    · -- A word that is an option leaves one.
      repeat' split at h
      all_goals try cases h
      all_goals
        cases hrest : readWords options false _ with
        | error e => rw [hrest] at h; cases h
        | ok w => rw [hrest] at h; cases h
    · cases h; exact Or.inl rfl

section Silent

variable (s : Settings) (w : Words) (i : Installation)

theorem createTables_server (written : String) : (createTables written i).1.server = none := by
  rw [createTables]
  split <;> rfl

theorem initDatabase_server (input : List String) : (initDatabase s w input i).1.server = none := by
  simp only [initDatabase]
  repeat' split
  all_goals first | rfl | exact createTables_server ..

theorem addProject_server (now : Time.Instant) : (addProject now w i).1.server = none := by
  simp only [addProject]
  split <;> rfl

theorem checkStorage_server : (checkStorage s i).1.server = none := by
  simp only [checkStorage]
  repeat' split
  all_goals rfl

end Silent

/-- Words after the name of the command that starts a server, with the options that are read off them and the settings
    that are loaded. -/
structure Accepted (sh : Shell) (rest : List String) (s : Settings) (w : Words) : Prop where
  read : readWords serveCommand.allOptions true rest = .ok w
  unasked : w.has "--help" = false
  checked : w.check serveCommand = .ok ()
  loaded : Settings.load sh.sources = .ok s

/-- A command line that starts a server with these settings and options. Two dashes may precede the name of the
    command. -/
def Starts (sh : Shell) (words : List String) (s : Settings) (w : Words) : Prop :=
  ∃ rest, (words = serveCommand.name :: rest ∨ words = "--" :: serveCommand.name :: rest) ∧ Accepted sh rest s w

theorem Starts.loaded (h : Starts sh words s w) : Settings.load sh.sources = .ok s := by
  obtain ⟨_, -, haccepted⟩ := h
  exact haccepted.loaded

/-- The options that are numbers can be read. -/
theorem Accepted.integers {rest : List String} (h : Accepted sh rest s w) :
    ∃ port workers, w.integer? "--port" = .ok port ∧ w.integer? "--workers" = .ok workers := by
  have hgood := Words.badInteger?_of_check h.checked
  obtain ⟨port, hport⟩ := Words.integer?_of_badInteger? "--port" hgood (by decide)
  obtain ⟨workers, hworkers⟩ := Words.integer?_of_badInteger? "--workers" hgood (by decide)
  exact ⟨port, workers, hport, hworkers⟩

theorem run_serve {rest : List String}
    (h : words = serveCommand.name :: rest ∨ words = "--" :: serveCommand.name :: rest) :
    run sh words i = runCommand sh serveCommand rest i := by
  have hnonempty : words.isEmpty = false := by obtain rfl | rfl := h <;> rfl
  have hgroup : readWords groupOptions false words = .ok { rest := serveCommand.name :: rest } := by
    obtain rfl | rfl := h
    · have hdashes : serveCommand.name ≠ "--" := by decide
      have hword : isOption serveCommand.name = false := by decide +kernel
      simp [readWords, hdashes, hword]
    · simp [readWords]
  have hfind : commands.find? (·.name == serveCommand.name) = some serveCommand := by decide
  simp only [run, hnonempty, hgroup, hfind]
  rfl

/-- The server that is started is the one that the options and the settings describe. -/
theorem Starts.serves (h : Starts sh words s w) (i : Installation) : ∃ port workers,
    w.integer? "--port" = .ok port ∧ w.integer? "--workers" = .ok workers ∧
      (run sh words i).1.server = some (serverOf s (w.value? "--host") port workers (w.has "--reload")) := by
  obtain ⟨rest, hwords, haccepted⟩ := h
  obtain ⟨port, workers, hport, hworkers⟩ := haccepted.integers
  refine ⟨port, workers, hport, hworkers, ?_⟩
  have hcommand : (runCommand sh serveCommand rest i).1 = serve s w := by
    simp only [runCommand, haccepted.read, haccepted.unasked, haccepted.checked, haccepted.loaded]
    rfl
  simp only [run_serve hwords, hcommand, serve, hport, hworkers]

/-- Of the commands only the one that serves starts a server, after everything that it checks. -/
theorem accepted_of_runCommand {c : Command} {rest : List String} (hc : c ∈ commands)
    (h : (runCommand sh c rest i).1.server = some v) : c = serveCommand ∧ ∃ s w, Accepted sh rest s w := by
  simp only [runCommand] at h
  split at h
  · cases h
  rename_i w hread
  split at h
  · cases h
  rename_i hhelp
  split at h
  · cases h
  rename_i hcheck
  split at h
  · cases h
  rename_i s hload
  have hserve : c = serveCommand := by
    simp only [commands, List.mem_cons, List.not_mem_nil, or_false] at hc
    obtain rfl | rfl | rfl | rfl := hc
    · simp [addCommand, addProject_server] at h
    · simp [checkCommand, checkStorage_server] at h
    · simp [initCommand, initDatabase_server] at h
    · rfl
  subst hserve
  exact ⟨rfl, s, w, hread, eq_false_of_ne_true hhelp, hcheck, hload⟩

/-- A server is started by no other command line. -/
theorem starts_of_run (h : (run sh words i).1.server = some v) : ∃ s w, Starts sh words s w := by
  simp only [run] at h
  split at h
  · cases h
  split at h
  · cases h
  rename_i given hgiven
  split at h
  · cases h
  · cases h
  rename_i name rest hoptions hrest
  split at h
  · rename_i c hfind
    obtain ⟨rfl, s, w, haccepted⟩ := accepted_of_runCommand (List.mem_of_find?_eq_some hfind) h
    have hname : serveCommand.name = name := by simpa using List.find?_some hfind
    obtain ⟨options, words⟩ := given
    obtain rfl : options = [] := hoptions
    obtain rfl : words = serveCommand.name :: rest := hname.symm ▸ hrest
    exact ⟨s, w, rest, readWords_unmixed hgiven, haccepted⟩
  · split at h <;> cases h

/-! ### SQLite -/

/-- Where the settings have at most one worker, a server has some larger number of them exactly if it does not reload
    and the option asks for that number. -/
theorem serverOf_workers {host : Option String} {port workers : Option Int} {reload : Bool} {n : Int}
    (hone : s.workers ≤ 1) (hn : 1 < n) :
    (serverOf s host port workers reload).workers = n ↔ reload = false ∧ workers = some n := by
  cases reload with
  | true => simp [serverOf]; omega
  | false =>
    cases workers with
    | none => simp [serverOf, orSetting]; omega
    | some asked =>
      by_cases hzero : asked = 0
      · simp [serverOf, orSetting, hzero]; omega
      · simp [serverOf, orSetting, hzero]

/-- A server is started by the command lines that call for one and by no others. On SQLite the settings then have at
    most one worker, but the server has several exactly if it does not reload and `--workers` asks for as many. -/
theorem sqlite_workers (sh : Shell) (words : List String) (i : Installation) :
    (∀ v, (run sh words i).1.server = some v → ∃ s w, Starts sh words s w) ∧
    ∀ s w, Starts sh words s w → s.isSqlite = true →
      s.workers ≤ 1 ∧ ∃ v workers, (run sh words i).1.server = some v ∧ w.integer? "--workers" = .ok workers ∧
        ∀ n, 1 < n → (v.workers = n ↔ w.has "--reload" = false ∧ workers = some n) := by
  refine ⟨fun v h => starts_of_run h, fun s w h hsqlite => ?_⟩
  have hone : s.workers ≤ 1 := Settings.workers_le_one h.loaded hsqlite
  obtain ⟨port, workers, -, hworkers, hserver⟩ := h.serves i
  exact ⟨hone, _, workers, hserver, hworkers, fun n hn => serverOf_workers hone hn⟩

/-- With the settings as they are by default three workers are asked for, and the server that is started has three. -/
theorem sqlite_workers_three : ∃ s w, Starts {} ["serve", "--workers", "3"] s w ∧ s.isSqlite = true ∧ s.workers ≤ 1 ∧
    w.has "--reload" = false ∧ w.integer? "--workers" = .ok (some 3) := by
  obtain ⟨hcalled, hsqlite⟩ := sqlite_workers {} ["serve", "--workers", "3"] { settings := {} }
  have hserver : (run {} ["serve", "--workers", "3"] { settings := {} }).1.server =
      some { host := "0.0.0.0", port := 8000, workers := 3, reload := false, logLevel := "info" } := by decide +kernel
  obtain ⟨s, w, hstarts⟩ := hcalled _ hserver
  obtain rfl : {} = s := Except.ok.inj hstarts.loaded
  have hdefault : Settings.isSqlite {} = true := by decide +kernel
  obtain ⟨hone, v, workers, hv, hworkers, hmany⟩ := hsqlite _ w hstarts hdefault
  rw [hserver] at hv
  cases hv
  obtain ⟨hreload, rfl⟩ := (hmany 3 (by decide)).mp rfl
  exact ⟨_, w, hstarts, hdefault, hone, hreload, hworkers⟩

/-- Four workers can be started on SQLite, although the settings would not be loaded with so many. -/
theorem sqlite_served_by_four : ¬ ∀ sh words i s v, Settings.load sh.sources = .ok s → s.isSqlite = true →
    (run sh words i).1.server = some v → v.workers ≤ 1 := by
  intro hone
  have hserver : (run {} ["serve", "--workers", "4"] { settings := {} }).1.server =
      some { host := "0.0.0.0", port := 8000, workers := 4, reload := false, logLevel := "info" } := by decide +kernel
  have hfour : (4 : Int) ≤ 1 := hone {} _ _ {} _ (by rfl) (by decide +kernel) hserver
  exact absurd hfour (by decide)

end CommandLine

end Curation
