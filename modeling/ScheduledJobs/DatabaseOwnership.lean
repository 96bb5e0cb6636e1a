/-
**Two databases, by their URLs.**

The scheduler and the store of event records each have a database of their own.  A configuration is
refused when the two URLs name the same one.  What a URL names is read off its parts: the scheme,
the host in lower case, the port, and the database in the path; credentials and options are left
out.

Two spellings of one database are told apart when they differ in the driver after the scheme, or
when only one of them writes the port.

Main definitions:

* `logicalDatabase`, `enforceDatabaseOwnership`, `AppConfig` — **the check of a configuration**;
* `Names` — a URL names a database on a host and a port;
* `PostgresUrl` — the spellings of such URLs;
* `SpelledAlike` — **the same scheme, and a port in both or in neither**.

Main results:

* `PostgresUrl.names` — what a spelling names;
* `logicalDatabase_of_names` — what the check reads off a URL;
* `refused_iff_spelledAlike` — **two URLs of one database are refused exactly when they are spelled
  alike**.
-/

import ScheduledJobs.UrlSplit

set_option relaxedAutoImplicit false
set_option autoImplicit false

namespace ScheduledJobs.Config

open Url

/-! ### The configuration -/

/-- Why a configuration is refused. -/
inductive ConfigError
  | configurationError (message : String)
  | valueError (message : String)
  | urlError (error : UrlError)
  deriving DecidableEq

/-- A database, with the deadlines that are checked against each other. -/
structure DatabaseFields where
  url : String
  statementTimeoutMs : ℕ := 15000
  lockTimeoutMs : ℕ := 5000
  transactionTimeoutMs : ℕ := 30000

/-- `validate_deadlines`. -/
def DatabaseFields.validateDeadlines (f : DatabaseFields) : Except ConfigError Unit :=
  if f.statementTimeoutMs < f.lockTimeoutMs then
    .error (.valueError "database lock timeout cannot exceed statement timeout")
  else if f.transactionTimeoutMs < f.statementTimeoutMs then
    .error (.valueError "database statement timeout cannot exceed transaction timeout")
  else .ok ()

/-- A database configuration that is accepted. -/
structure DatabaseConfig extends DatabaseFields where
  one_le : 1 ≤ statementTimeoutMs ∧ 1 ≤ lockTimeoutMs ∧ 1 ≤ transactionTimeoutMs
  valid : toDatabaseFields.validateDeadlines = .ok ()

/-- What a URL names, without credentials and options. -/
structure LogicalDatabase where
  scheme : List Char
  host : List Char
  port : Option ℕ
  database : List Char
  deriving DecidableEq, Repr

/-- `str.strip`. -/
def strip (c : Char) (s : List Char) : List Char :=
  ((s.dropWhile fun d => d = c).reverse.dropWhile fun d => d = c).reverse

variable (tables : Tables)

/-- **`_logical_database`.** -/
def logicalDatabase (url : String) : Except ConfigError LogicalDatabase := do
  let parsed ← (urlsplit tables url.toList).mapError .urlError
  let database := strip '/' (unquote parsed.path)
  let invalid : ConfigError :=
    .configurationError "database URLs must include scheme, host, and database name"
  if parsed.scheme = [] ∨ database = [] then .error invalid
  else
    match parsed.hostname tables with
    | none => .error invalid
    | some hostname => do
      let port ← parsed.port.mapError .urlError
      return ⟨tables.lower parsed.scheme, tables.lower hostname, port, database⟩

/-- The message of a configuration whose databases are the same. -/
def sameDatabase : ConfigError :=
  .configurationError "scheduler and EDR URLs must identify different logical databases"

/-- **`enforce_database_ownership`.** -/
def enforceDatabaseOwnership (scheduler edr : String) : Except ConfigError Unit := do
  let schedulerDatabase ← logicalDatabase tables scheduler
  let edrDatabase ← logicalDatabase tables edr
  if schedulerDatabase = edrDatabase then .error sameDatabase else .ok ()

/-- The databases of a configuration that is accepted. -/
structure AppConfig where
  schedulerDatabase : DatabaseConfig
  edrDatabase : DatabaseConfig
  owned : enforceDatabaseOwnership tables schedulerDatabase.url edrDatabase.url = .ok ()

/-- Building a configuration. -/
def AppConfig.build (scheduler edr : DatabaseConfig) : Except ConfigError (AppConfig tables) :=
  match h : enforceDatabaseOwnership tables scheduler.url edr.url with
  | .ok () => .ok ⟨scheduler, edr, h⟩
  | .error e => .error e

/-! ### What a URL names -/

/-- The schemes of PostgreSQL, with a driver or without. -/
def IsPostgres (scheme : List Char) : Prop :=
  before '+' scheme = "postgresql".toList ∨ before '+' scheme = "postgres".toList

/-- A URL names a database on a host, in either case, and a port, which is 5432 when it is not
written. -/
def Names (url : String) (host : List Char) (port : ℕ) (database : List Char) : Prop :=
  ∃ parsed, urlsplit tables url.toList = .ok parsed ∧ IsPostgres parsed.scheme ∧
    (hostInfo parsed.netloc).1 ≠ [] ∧
    tables.lower (hostInfo parsed.netloc).1 = tables.lower host ∧
    (∃ p, parsed.port = .ok p ∧ p.getD 5432 = port) ∧
    strip '/' (unquote parsed.path) = database ∧ database ≠ []

/-- The URLs have the same scheme, with the same driver, and both write the port or neither does. -/
def SpelledAlike (a b : String) : Prop :=
  ∃ p q, urlsplit tables a.toList = .ok p ∧ urlsplit tables b.toList = .ok q ∧
    p.scheme = q.scheme ∧ (p.port = .ok none ↔ q.port = .ok none)

/-! ### What the check reads off a URL -/

section Names

variable {tables} {url : String} {host database : List Char} {port : ℕ}

theorem not_isPostgres_nil : ¬ IsPostgres [] := by
  rintro (h | h)
  · cases h
  · cases h

/-- **What the check reads off a URL that names a database**: the scheme and the port as they are
written, and the rest of what is named. -/
theorem logicalDatabase_of_names (h : Names tables url host port database) :
    ∃ parsed p, urlsplit tables url.toList = .ok parsed ∧ parsed.port = .ok p ∧
      p.getD 5432 = port ∧
      logicalDatabase tables url = .ok ⟨parsed.scheme, tables.lower host, p, database⟩ := by
  obtain ⟨parsed, hparsed, hscheme, hhost, hlower, ⟨p, hp, hport⟩, hdatabase, hne⟩ := h
  refine ⟨parsed, p, hparsed, hp, hport, ?_⟩
  have hscheme' : ¬ (parsed.scheme = [] ∨ database = []) := by
    rintro (hnil | hnil)
    · exact not_isPostgres_nil (hnil ▸ hscheme)
    · exact hne hnil
  cases hname : parsed.hostname tables with
  | none =>
      rw [SplitResult.hostname, if_neg hhost] at hname
      cases hname
  | some hostname =>
      have hhostname : tables.lower hostname = tables.lower host :=
        (lower_hostname hname).trans hlower
      rw [logicalDatabase, hparsed]
      simp only [Except.mapError, bind, Except.bind, hdatabase, if_neg hscheme', hname, hp,
        lower_scheme hparsed, hhostname]
      rfl

/-- A port is told from its effective value by whether it is written. -/
theorem port_eq_iff {p q : Option ℕ} {port : ℕ} (hp : p.getD 5432 = port)
    (hq : q.getD 5432 = port) : p = q ↔ (p = none ↔ q = none) := by
  cases p with
  | none =>
      cases q with
      | none => simp
      | some m => simp
  | some n =>
      cases q with
      | none => simp
      | some m =>
          simp only [Option.getD_some] at hp hq
          simp [hp, hq]

theorem spelledAlike_iff_of_split {a b : String} {p q : SplitResult}
    (ha : urlsplit tables a.toList = .ok p) (hb : urlsplit tables b.toList = .ok q) :
    SpelledAlike tables a b ↔ p.scheme = q.scheme ∧ (p.port = .ok none ↔ q.port = .ok none) := by
  constructor
  · rintro ⟨p', q', ha', hb', hboth⟩
    obtain rfl := Except.ok.inj (ha.symm.trans ha')
    obtain rfl := Except.ok.inj (hb.symm.trans hb')
    exact hboth
  · exact fun hboth => ⟨p, q, ha, hb, hboth⟩

theorem returns_build_iff {scheduler edr : DatabaseConfig} :
    (AppConfig.build tables scheduler edr).Returns ↔
      enforceDatabaseOwnership tables scheduler.url edr.url = .ok () := by
  delta AppConfig.build
  split
  · next h => exact iff_of_true (Except.returns_ok _) h
  · next e h =>
      refine iff_of_false (Except.not_returns_error e) ?_
      rw [h]
      intro hok
      cases hok

/-- **Two URLs of one database are refused exactly when they are spelled alike.** -/
theorem refused_iff_spelledAlike {scheduler edr : DatabaseConfig}
    (hscheduler : Names tables scheduler.url host port database)
    (hedr : Names tables edr.url host port database) :
    ¬ (AppConfig.build tables scheduler edr).Returns ↔
      SpelledAlike tables scheduler.url edr.url := by
  obtain ⟨a, p, ha, hp, hpport, hadatabase⟩ := logicalDatabase_of_names hscheduler
  obtain ⟨b, q, hb, hq, hqport, hbdatabase⟩ := logicalDatabase_of_names hedr
  have hports : (a.port = .ok none ↔ b.port = .ok none) ↔ p = q := by
    rw [hp, hq, port_eq_iff hpport hqport]
    simp only [Except.ok.injEq]
  have hsame : (⟨a.scheme, tables.lower host, p, database⟩ : LogicalDatabase) =
      ⟨b.scheme, tables.lower host, q, database⟩ ↔ a.scheme = b.scheme ∧ p = q := by
    simp only [LogicalDatabase.mk.injEq, true_and, and_true]
  rw [returns_build_iff, spelledAlike_iff_of_split ha hb, hports, ← hsame, enforceDatabaseOwnership,
    hadatabase, hbdatabase]
  simp only [bind, Except.bind]
  split
  · next heq => exact iff_of_true (fun h => by cases h) heq
  · next hne => exact iff_of_false (fun h => h rfl) hne

end Names

/-! ### Spellings -/

theorem dropWhile_replicate_append {c : Char} {s : List Char} (h : s.head? ≠ some c) (n : ℕ) :
    (List.replicate n c ++ s).dropWhile (fun d => d = c) = s := by
  rw [List.dropWhile_append_of_pos fun d hd => decide_eq_true (List.eq_of_mem_replicate hd)]
  cases s with
  | nil => rfl
  | cons d ds =>
      have hd : ¬ d = c := fun heq => h (congrArg some heq)
      exact List.dropWhile_cons_of_neg (by simpa using hd)

/-- What neither begins nor ends with a character is left when the character is stripped. -/
theorem strip_replicate {c : Char} {s : List Char} (hhead : s.head? ≠ some c)
    (hlast : s.getLast? ≠ some c) (hne : s ≠ []) (m n : ℕ) :
    strip c (List.replicate m c ++ s ++ List.replicate n c) = s := by
  have hfront : (s ++ List.replicate n c).head? ≠ some c := by
    rwa [List.head?_append_of_ne_nil _ hne]
  have hback : s.reverse.head? ≠ some c := by rwa [List.head?_reverse]
  rw [strip, List.append_assoc, dropWhile_replicate_append hfront, List.reverse_append,
    List.reverse_replicate, dropWhile_replicate_append hback, List.reverse_reverse]

/-- How a network location is written. -/
def netlocText (credentials : Option (List Char)) (bracketed : Bool) (host : List Char)
    (port : Option (List Char)) : List Char :=
  credentialsText credentials ++ (hostText bracketed host ++ portText port)

/-- **A spelling of a PostgreSQL URL**: a scheme in any case, perhaps with a driver; perhaps
credentials; a host; perhaps a port; a path of slashes around a name, any of whose characters may be
quoted; and options. -/
structure PostgresUrl where
  scheme : List Char
  credentials : Option (List Char)
  bracketed : Bool
  host : List Char
  port : Option (List Char)
  leading : ℕ
  name : List (Option Bool × Char)
  trailing : ℕ
  options : List Char
  isScheme : Url.isScheme scheme = true
  isPostgres : IsPostgres (scheme.map Char.toLower)
  credentials_printed : ∀ c ∈ credentials.getD [], endsNetloc c = false ∧ 32 < c.toNat
  host_ne_nil : host ≠ []
  host_printed : ∀ c ∈ host, (c ≠ '@' ∧ c ≠ '[' ∧ c ≠ ']') ∧ endsNetloc c = false ∧ 32 < c.toNat
  host_isName : bracketed = false → ':' ∉ host
  port_isDigit : ∀ c ∈ port.getD [], c.isDigit = true
  port_length : (port.getD []).length ≤ 4300
  port_le : Numerals.natValue (port.getD []) ≤ 65535
  netloc_allowed : checkNetloc tables (netlocText credentials bracketed host port) = .ok ()
  isQuoted : IsQuoted name
  name_printed : ∀ m ∈ name, m.1 = none → m.2 ≠ '?' ∧ m.2 ≠ '#' ∧ 32 < m.2.toNat
  name_ne_nil : name ≠ []
  name_head : (name.map Prod.snd).head? ≠ some '/'
  name_last : (name.map Prod.snd).getLast? ≠ some '/'
  isOptions : IsOptions options

namespace PostgresUrl

variable {tables}

/-- The path. -/
def path (u : PostgresUrl tables) : List Char :=
  quoteText (List.replicate (u.leading + 1) (none, '/') ++ u.name ++
    List.replicate u.trailing (none, '/'))

/-- The network location. -/
def netloc (u : PostgresUrl tables) : List Char :=
  netlocText u.credentials u.bracketed u.host u.port

/-- The text. -/
def text (u : PostgresUrl tables) : String :=
  String.ofList (u.scheme ++ ':' :: '/' :: '/' :: (u.netloc ++ u.path ++ u.options))

/-- The port, when it is written. -/
def portNumber (u : PostgresUrl tables) : Option ℕ :=
  if u.port.getD [] = [] then none else some (Numerals.natValue (u.port.getD []))

/-- The name of the database. -/
def database (u : PostgresUrl tables) : List Char := u.name.map Prod.snd

theorem strip_unquote_path (u : PostgresUrl tables) : strip '/' (unquote u.path) = u.database := by
  have hquoted : IsQuoted (List.replicate (u.leading + 1) (none, '/') ++ u.name ++
      List.replicate u.trailing (none, '/')) := by
    intro m hm hplain
    simp only [List.mem_append, List.mem_replicate] at hm
    rcases hm with (⟨-, rfl⟩ | hm) | ⟨-, rfl⟩
    · decide
    · exact u.isQuoted m hm hplain
    · decide
  rw [path, unquote_quoteText hquoted, List.map_append, List.map_append, List.map_replicate,
    List.map_replicate]
  have hne : u.name.map Prod.snd ≠ [] := fun h => u.name_ne_nil (List.map_eq_nil_iff.1 h)
  exact strip_replicate u.name_head u.name_last hne _ _

theorem path_printed (u : PostgresUrl tables) :
    ∀ c ∈ u.path, c ≠ '?' ∧ c ≠ '#' ∧ 32 < c.toNat := by
  intro c hc
  obtain ⟨⟨quoted, d⟩, hm, hmem⟩ := List.mem_flatMap.1 hc
  cases quoted with
  | some upper =>
      obtain ⟨b, -, hb⟩ := List.mem_flatMap.1 hmem
      rcases mem_quoteByte hb with rfl | halphanum
      · decide
      · have hrange := toNat_of_isAlphanum halphanum
        refine ⟨?_, ?_, by omega⟩
        all_goals
          rintro rfl
          exact absurd halphanum (by decide)
  | none =>
      obtain rfl : c = d := List.mem_singleton.1 hmem
      simp only [List.mem_append, List.mem_replicate, Prod.mk.injEq, true_and] at hm
      rcases hm with (⟨-, rfl⟩ | hm) | ⟨-, rfl⟩
      · decide
      · exact u.name_printed _ hm rfl
      · decide

theorem path_head (u : PostgresUrl tables) : ∀ c ∈ u.path.head?, c = '/' := by
  intro c hc
  rw [path, List.replicate_succ] at hc
  exact (Option.some.inj hc).symm

theorem isDigit_printed {c : Char} (h : c.isDigit = true) :
    endsNetloc c = false ∧ 32 < c.toNat := by
  have hrange := toNat_of_isAlphanum (c := c) (by simp [Char.isAlphanum, h])
  refine ⟨?_, by omega⟩
  by_contra hends
  rw [Bool.not_eq_false] at hends
  simp only [endsNetloc, Bool.or_eq_true, decide_eq_true_eq] at hends
  rcases hends with (rfl | rfl) | rfl
  all_goals exact absurd h (by decide)

theorem netloc_printed (u : PostgresUrl tables) :
    ∀ c ∈ u.netloc, endsNetloc c = false ∧ 32 < c.toNat := by
  intro c hc
  rcases List.mem_append.1 hc with hc | hc
  · have hcredentials := u.credentials_printed
    cases hwritten : u.credentials with
    | none =>
        rw [hwritten] at hc
        cases hc
    | some text =>
        rw [hwritten] at hc hcredentials
        rcases List.mem_append.1 hc with hc | hc
        · exact hcredentials c hc
        · rw [List.mem_singleton.1 hc]
          decide
  · rcases List.mem_append.1 hc with hc | hc
    · rw [hostText] at hc
      split at hc
      · simp only [List.mem_cons, List.mem_append, List.not_mem_nil, or_false] at hc
        rcases hc with rfl | hc | rfl
        · decide
        · exact (u.host_printed c hc).2
        · decide
      · exact (u.host_printed c hc).2
    · have hdigits := u.port_isDigit
      cases hwritten : u.port with
      | none =>
          rw [hwritten] at hc
          cases hc
      | some digits =>
          rw [hwritten] at hc hdigits
          rcases List.mem_cons.1 hc with rfl | hc
          · decide
          · exact isDigit_printed (hdigits c hc)

/-- **How a spelling is taken apart.** -/
theorem urlsplit_spelling (u : PostgresUrl tables) :
    ∃ parsed, urlsplit tables u.text.toList = .ok parsed ∧
      parsed.scheme = u.scheme.map Char.toLower ∧ (hostInfo parsed.netloc).1 = u.host ∧
      parsed.port = .ok u.portNumber ∧ parsed.path = u.path := by
  obtain ⟨query, fragment, hsplit⟩ := urlsplit_text tables u.isScheme u.netloc_printed
    u.netloc_allowed u.path_head u.path_printed u.isOptions
  have hinfo : hostInfo u.netloc = (u.host, u.port.getD []) :=
    hostInfo_text u.credentials (fun c hc => (u.host_printed c hc).1) u.host_isName u.port_isDigit
  have hscheme : tables.lower u.scheme = u.scheme.map Char.toLower :=
    tables.lower_ascii u.scheme fun c hc =>
      (toNat_of_isSchemeChar (isSchemeChar_of_mem u.isScheme c hc)).2.2
  refine ⟨_, (congrArg (urlsplit tables) (String.toList_ofList)).trans hsplit, hscheme,
    congrArg Prod.fst hinfo, ?_, rfl⟩
  rw [SplitResult.port, hinfo, portNumber]
  split
  · rfl
  · rw [if_neg, if_neg (not_lt.2 u.port_length), if_neg (not_lt.2 u.port_le)]
    exact not_not.2 (List.all_eq_true.2 u.port_isDigit)

/-- **What a spelling names**: its host, its port or 5432, and the database that is spelled. -/
theorem names (u : PostgresUrl tables) :
    Names tables u.text u.host (u.portNumber.getD 5432) u.database := by
  obtain ⟨parsed, hparsed, hscheme, hhost, hport, hpath⟩ := u.urlsplit_spelling
  have hne : u.database ≠ [] := fun h => u.name_ne_nil (List.map_eq_nil_iff.1 h)
  refine ⟨parsed, hparsed, ?_, ?_, ?_, ⟨u.portNumber, hport, rfl⟩, ?_, hne⟩
  · rw [hscheme]
    exact u.isPostgres
  · rw [hhost]
    exact u.host_ne_nil
  · rw [hhost]
  · rw [hpath, u.strip_unquote_path]

/-- **When two spellings are alike**: whatever their credentials, their options, the case of their
letters and the characters they quote. -/
theorem spelledAlike_iff (u v : PostgresUrl tables) :
    SpelledAlike tables u.text v.text ↔
      u.scheme.map Char.toLower = v.scheme.map Char.toLower ∧
        (u.portNumber = none ↔ v.portNumber = none) := by
  obtain ⟨a, ha, hascheme, -, haport, -⟩ := u.urlsplit_spelling
  obtain ⟨b, hb, hbscheme, -, hbport, -⟩ := v.urlsplit_spelling
  have hports : (a.port = .ok none ↔ b.port = .ok none) ↔
      (u.portNumber = none ↔ v.portNumber = none) := by
    rw [haport, hbport]
    simp only [Except.ok.injEq]
  rw [spelledAlike_iff_of_split ha hb, hascheme, hbscheme, hports]

end PostgresUrl

/-! ### Three URLs of one database -/

theorem toLower_of_not_upper {c : Char} (h : ¬ (c.val ≥ 'A'.val ∧ c.val ≤ 'Z'.val)) :
    c.toLower = c := dif_neg h

theorem val_toLower_of_upper {c : Char} (h : c.val ≥ 'A'.val ∧ c.val ≤ 'Z'.val) :
    c.toLower.val = c.val + ('a'.val - 'A'.val) := congrArg Char.val (dif_pos h)

theorem toLower_toLower (c : Char) : c.toLower.toLower = c.toLower := by
  by_cases h : c.val ≥ 'A'.val ∧ c.val ≤ 'Z'.val
  · refine toLower_of_not_upper fun hlower => ?_
    rw [val_toLower_of_upper h] at hlower
    simp [UInt32.le_iff_toNat_le] at h hlower
    omega
  · rw [toLower_of_not_upper h, toLower_of_not_upper h]

/-- The tables as far as ASCII goes. -/
def asciiTables : Tables where
  lower s := s.map Char.toLower
  bracketedAllowed _ := true
  netlocAllowed _ := true
  lower_ascii _ _ := rfl
  lower_lower_append a z _ := by
    rw [List.map_append, List.map_append, List.map_map]
    congr 2
    exact funext toLower_toLower
  netlocAllowed_ascii _ _ := rfl

/-- The database of a URL. -/
def databaseAt (url : String) : DatabaseConfig where
  url := url
  one_le := ⟨by decide, by decide, by decide⟩
  valid := rfl

/-- With a driver and a port. -/
def driverAndPort : DatabaseConfig :=
  databaseAt "postgresql+psycopg://scheduler:secret@db:5432/jobs"

/-- With another user, the host in other letters, and an option. -/
def otherUser : DatabaseConfig :=
  databaseAt "postgresql+psycopg://edr:other-secret@DB:5432/jobs?sslmode=require"

/-- Without the port. -/
def withoutPort : DatabaseConfig := databaseAt "postgresql+psycopg://edr:other-secret@db/jobs"

/-- The parts of a URL of the database. -/
def partsAt (netloc query : String) : SplitResult where
  scheme := "postgresql+psycopg".toList
  netloc := netloc.toList
  path := "/jobs".toList
  query := query.toList
  fragment := []

theorem names_of_parts {url netloc query : String} (host : String) (p : Option ℕ)
    (hsplit : urlsplit asciiTables url.toList = .ok (partsAt netloc query))
    (hhost : (hostInfo netloc.toList).1 = host.toList) (hne : host.toList ≠ [])
    (hlower : host.toList.map Char.toLower = "db".toList)
    (hport : (partsAt netloc query).port = .ok p) (hp : p.getD 5432 = 5432) :
    Names asciiTables url "db".toList 5432 "jobs".toList := by
  refine ⟨_, hsplit, Or.inl rfl, ?_, ?_, ⟨p, hport, hp⟩, rfl, by decide⟩
  · exact hhost ▸ hne
  · exact (congrArg asciiTables.lower hhost).trans hlower

theorem urlsplit_driverAndPort : urlsplit asciiTables driverAndPort.url.toList =
    .ok (partsAt "scheduler:secret@db:5432" "") := by
  decide +kernel

theorem urlsplit_otherUser : urlsplit asciiTables otherUser.url.toList =
    .ok (partsAt "edr:other-secret@DB:5432" "sslmode=require") := by
  decide +kernel

theorem urlsplit_withoutPort : urlsplit asciiTables withoutPort.url.toList =
    .ok (partsAt "edr:other-secret@db" "") := by
  decide +kernel

theorem names_driverAndPort : Names asciiTables driverAndPort.url "db".toList 5432 "jobs".toList :=
  names_of_parts "db" (some 5432) urlsplit_driverAndPort rfl (by decide) rfl rfl rfl

theorem names_otherUser : Names asciiTables otherUser.url "db".toList 5432 "jobs".toList :=
  names_of_parts "DB" (some 5432) urlsplit_otherUser rfl (by decide) rfl rfl rfl

theorem names_withoutPort : Names asciiTables withoutPort.url "db".toList 5432 "jobs".toList :=
  names_of_parts "db" none urlsplit_withoutPort rfl (by decide) rfl rfl rfl

/-- Another user and an option do not make another database. -/
theorem refused_iff_spelledAlike_otherUser :
    ¬ (AppConfig.build asciiTables driverAndPort otherUser).Returns := by
  refine (refused_iff_spelledAlike names_driverAndPort names_otherUser).2 ?_
  have hports : (partsAt "scheduler:secret@db:5432" "").port = .ok (some 5432) ∧
      (partsAt "edr:other-secret@DB:5432" "sslmode=require").port = .ok (some 5432) :=
    ⟨rfl, rfl⟩
  rw [spelledAlike_iff_of_split urlsplit_driverAndPort urlsplit_otherUser, hports.1, hports.2]
  exact ⟨rfl, Iff.rfl⟩

/-- **A port that is written in only one of two URLs makes two databases of one.** -/
theorem not_refused_withoutPort :
    ¬ ∀ (tables : Tables) (scheduler edr : DatabaseConfig) (host database : List Char) (port : ℕ),
      Names tables scheduler.url host port database → Names tables edr.url host port database →
      ¬ (AppConfig.build tables scheduler edr).Returns := by
  intro h
  refine h asciiTables driverAndPort withoutPort _ _ _ names_driverAndPort names_withoutPort
    (returns_build_iff.2 ?_)
  decide +kernel

end ScheduledJobs.Config
