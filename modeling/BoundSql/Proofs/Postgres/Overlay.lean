import BoundSql.Postgres.Options

/-!
# Options over a URL

An option that is set counts before the URL, and an option that is not set leaves what the URL says.
This is so for the settings that replace each other: the database, the user, the password and the
name of the application. Hosts and numbers of servers are lists to which an option adds, so that
behind a URL that names servers, the servers of the URL still come first.

* `Settings.Extends`: reading a URL only adds to the lists of hosts and numbers;
* `ConnectOptions.names_of_namesServer`: a URL with a server names a host and a number;
* `ConnectOptions.overlays_iff`: which options count before the URL.
-/

namespace BoundSql

/-- A text has a piece before, between or behind the marks. -/
theorem Text.splitAtEach_ne_nil (mark : Char) (s : List Char) : splitAtEach mark s ≠ [] := by
  cases s with
  | nil => simp [splitAtEach]
  | cons c rest =>
    rw [splitAtEach]
    split
    · simp
    · split <;> simp

namespace Postgres

/-- The host that a name stands for: a name that begins with a slash is a directory. -/
def Host.ofName (name : String) : Host :=
  if name.toList.head? = some '/' then .unix name else .tcp name

/-! ### Lists only grow -/

/-- The lists of hosts and numbers go on where others end. -/
structure Settings.Extends (s t : Settings) : Prop where
  /-- The hosts stand at the beginning. -/
  hosts : s.hosts <+: t.hosts
  /-- The numbers stand at the beginning. -/
  portNumbers : s.portNumbers <+: t.portNumbers

namespace Settings

variable {s t u : Settings}

theorem Extends.refl (s : Settings) : s.Extends s := ⟨List.prefix_rfl, List.prefix_rfl⟩

theorem Extends.trans (h : s.Extends t) (h' : t.Extends u) : s.Extends u :=
  ⟨h.hosts.trans h'.hosts, h.portNumbers.trans h'.portNumbers⟩

/-- Settings with the same lists. -/
theorem Extends.of_eq (hhosts : t.hosts = s.hosts) (hnumbers : t.portNumbers = s.portNumbers) :
    s.Extends t :=
  ⟨hhosts ▸ List.prefix_rfl, hnumbers ▸ List.prefix_rfl⟩

/-- A host is added at the end. -/
theorem extends_addHost (name : String) (s : Settings) : s.Extends (s.addHost name) :=
  ⟨List.prefix_append _ _, List.prefix_rfl⟩

/-- A number is added at the end. -/
theorem extends_addPortNumber (n : Nat) (s : Settings) : s.Extends (s.addPortNumber n) :=
  ⟨List.prefix_rfl, List.prefix_append _ _⟩

/-- A run over parts only adds if each part does. -/
theorem extends_foldlM {α : Type} {f : Settings → α → Option Settings} {as : List α}
    (hf : ∀ s a t, f s a = some t → s.Extends t) (h : as.foldlM f s = some t) : s.Extends t := by
  induction as generalizing s with
  | nil =>
    obtain rfl := Option.some.inj h
    exact .refl s
  | cons a as ih =>
    rw [List.foldlM_cons] at h
    obtain ⟨next, hnext, hrest⟩ := Option.bind_eq_some_iff.1 h
    exact (hf s a next hnext).trans (ih hrest)

/-- A run over parts, of which there is one, does what the first part does. -/
theorem exists_of_foldlM {α : Type} {f : Settings → α → Option Settings} {as : List α}
    (hf : ∀ s a t, f s a = some t → s.Extends t) (hne : as ≠ []) (h : as.foldlM f s = some t) :
    ∃ a next, f s a = some next ∧ next.Extends t := by
  cases as with
  | nil => exact absurd rfl hne
  | cons a as =>
    rw [List.foldlM_cons] at h
    obtain ⟨next, hnext, hrest⟩ := Option.bind_eq_some_iff.1 h
    exact ⟨a, next, hnext, extends_foldlM hf hrest⟩

/-- Hosts are added one after the other. -/
theorem extends_addHosts (names : List (List Char)) (s : Settings) :
    s.Extends (names.foldl (fun s name => s.addHost (String.ofList name)) s) := by
  induction names generalizing s with
  | nil => exact .refl s
  | cons name names ih => exact (extends_addHost _ s).trans (ih _)

/-- A number that is written is added at the end. -/
theorem extends_portText (s : Settings) (text : List Char) (t : Settings)
    (h : ((readPortNumber? text).map fun n => s.addPortNumber n) = some t) :
    s.Extends t ∧ t.portNumbers ≠ [] := by
  obtain ⟨n, -, rfl⟩ := Option.map_eq_some_iff.1 h
  exact ⟨extends_addPortNumber n s, List.append_ne_nil_of_right_ne_nil _ (List.cons_ne_nil n [])⟩

/-- A setting only adds to the lists. -/
theorem extends_set? {key value : String} (h : s.set? key value = some t) : s.Extends t := by
  unfold set? at h
  dsimp only at h
  split at h
  case h_5 => exact Option.some.inj h ▸ extends_addHosts _ s
  case h_7 => exact extends_foldlM (fun s text t h => (extends_portText s text t h).1) h
  case h_6 | h_8 =>
    split at h
    · obtain rfl := Option.some.inj h
      exact .of_eq rfl rfl
    · cases h
  all_goals
    obtain rfl := Option.some.inj h
    exact .of_eq rfl rfl

/-- The setting of a number names one. -/
theorem portNumbers_of_set? {value : String} (h : s.set? "port" value = some t) :
    t.portNumbers ≠ [] := by
  obtain ⟨text, next, hnext, hrest⟩ :=
    exists_of_foldlM (fun s text t h => (extends_portText s text t h).1)
      (Text.splitAtEach_ne_nil _ _) h
  intro hnil
  have hprefix : next.portNumbers <+: [] := hnil ▸ hrest.portNumbers
  exact (extends_portText s text next hnext).2 (List.prefix_nil.1 hprefix)

/-- Settings that name a host and the number of a server. -/
def NamesServer (s : Settings) : Prop := s.hosts ≠ [] ∧ s.portNumbers ≠ []

/-- What is named stays named. -/
theorem NamesServer.extends (h : s.NamesServer) (h' : s.Extends t) : t.NamesServer := by
  constructor
  · intro hnil
    exact h.1 (List.prefix_nil.1 (hnil ▸ h'.hosts))
  · intro hnil
    exact h.2 (List.prefix_nil.1 (hnil ▸ h'.portNumbers))

end Settings

/-! ### Servers of a URL -/

namespace UrlText

variable {s t : Settings} {text rest : List Char}

/-- A host of a URL is added at the end. -/
theorem extends_addHost? (h : addHost? text s = some t) : s.Extends t ∧ t.hosts ≠ [] := by
  obtain ⟨host, -, rfl⟩ := Option.map_eq_some_iff.1 h
  exact ⟨Settings.extends_addHost host s,
    List.append_ne_nil_of_right_ne_nil _ (List.cons_ne_nil _ [])⟩

/-- A server of a URL adds a host and a number, be it the standard one. -/
theorem namesServer_applyServer? (h : applyServer? s text = some t) :
    s.Extends t ∧ t.NamesServer := by
  simp only [applyServer?, Option.bind_eq_bind, Option.bind_eq_some_iff] at h
  obtain ⟨⟨host, number⟩, -, named, hhost, h⟩ := h
  obtain ⟨written, hnumber⟩ : ∃ written, named.set? "port" written = some t := by
    -- A server without a number has the standard one.
    cases number with
    | none => exact ⟨_, h⟩
    | some number =>
      obtain ⟨written, -, hnumber⟩ := Option.bind_eq_some_iff.1 h
      exact ⟨written, hnumber⟩
  obtain ⟨hgrown, hhosts⟩ := extends_addHost? hhost
  have hset := Settings.extends_set? hnumber
  refine ⟨hgrown.trans hset, ?_, Settings.portNumbers_of_set? hnumber⟩
  intro hnil
  exact hhosts (List.prefix_nil.1 (hnil ▸ hset.hosts))

/-- A parameter of a URL only adds to the lists. -/
theorem extends_applyParameter? (s : Settings) (text : List Char) (t : Settings)
    (h : applyParameter? s text = some t) : s.Extends t := by
  simp only [applyParameter?, Option.bind_eq_bind, Option.bind_eq_some_iff] at h
  obtain ⟨⟨key, value⟩, -, name, -, h⟩ := h
  split at h
  · exact (extends_addHost? h).1
  · obtain ⟨read, -, h⟩ := Option.bind_eq_some_iff.1 h
    exact Settings.extends_set? h

/-- The database of a URL leaves the lists alone. -/
theorem extends_applyDatabase? (h : applyDatabase? text s = some (rest, t)) : s.Extends t := by
  unfold applyDatabase? at h
  split at h
  · dsimp only at h
    split at h
    · obtain ⟨-, rfl⟩ := Prod.mk.inj (Option.some.inj h)
      exact .refl s
    · obtain ⟨database, -, h⟩ := Option.map_eq_some_iff.1 h
      obtain ⟨-, rfl⟩ := Prod.mk.inj h
      exact .of_eq rfl rfl
  · obtain ⟨-, rfl⟩ := Prod.mk.inj (Option.some.inj h)
    exact .refl s

/-- The parameters of a URL only add to the lists. -/
theorem extends_applyParameters? (h : applyParameters? text s = some t) : s.Extends t := by
  unfold applyParameters? at h
  split at h
  · exact Settings.extends_foldlM extends_applyParameter? h
  · obtain rfl := Option.some.inj h
    exact .refl s

/-- What stands in a URL behind the user. -/
def behindUser (s : List Char) : List Char :=
  match Text.splitAtFirst? '@' s with
  | none => s
  | some (_, rest) => rest

/-- The servers of a URL, which stand behind the user and before the path and the parameters. -/
def servers (s : List Char) : List Char := (upTo ['/', '?'] (behindUser s)).1

/-- The user of a URL is passed over. -/
theorem eq_behindUser_of_applyUser? (h : applyUser? text s = some (rest, t)) :
    rest = behindUser text := by
  rw [applyUser?] at h
  rw [behindUser]
  cases hsplit : Text.splitAtFirst? '@' text with
  | none =>
    rw [hsplit] at h
    exact (Prod.mk.inj (Option.some.inj h)).1.symm
  | some parts =>
    rw [hsplit] at h
    dsimp only at h
    -- With or without a password, the text goes on behind the mark.
    split at h
    · obtain ⟨user, -, h⟩ := Option.map_eq_some_iff.1 h
      exact (Prod.mk.inj h).1.symm
    · obtain ⟨user, -, h⟩ := Option.map_eq_some_iff.1 h
      exact (Prod.mk.inj h).1.symm

/-- A URL in which a server stands names a host and a number. -/
theorem namesServer_ofRest? (hservers : servers text ≠ []) (h : ofRest? text = some t) :
    t.NamesServer := by
  simp only [ofRest?, Option.bind_eq_bind, Option.bind_eq_some_iff] at h
  obtain ⟨⟨afterUser, withUser⟩, huser, ⟨afterServers, withServers⟩, hserver, ⟨_, withDatabase⟩,
    hdatabase, hparameters⟩ := h
  obtain rfl := eq_behindUser_of_applyUser? huser
  have hnamed : withServers.NamesServer := by
    rw [applyServers?] at hserver
    rw [servers] at hservers
    dsimp only at hserver
    rw [if_neg hservers] at hserver
    obtain ⟨final, hfold, heq⟩ := Option.map_eq_some_iff.1 hserver
    obtain ⟨-, rfl⟩ := Prod.mk.inj heq
    obtain ⟨server, next, hnext, hrest⟩ :=
      Settings.exists_of_foldlM (fun _ _ _ h => (namesServer_applyServer? h).1)
        (Text.splitAtEach_ne_nil _ _) hfold
    exact (namesServer_applyServer? hnext).2.extends hrest
  exact (hnamed.extends (extends_applyDatabase? hdatabase)).extends
    (extends_applyParameters? hparameters)

end UrlText

/-! ### Options over the settings of a URL -/

namespace ConnectOptions

variable {o : ConnectOptions} {s : Settings}

/-- The server that the options name: the socket, or else the host. -/
def server? (o : ConnectOptions) : Option Host := o.socket.map .unix <|> o.host.map .ofName

/-- The hosts that should count over those of a URL: the server that is named, or else those of the
URL, or else this machine. -/
def hostsOver (o : ConnectOptions) (hosts : List Host) : List Host :=
  match o.server? with
  | some server => [server]
  | none => if hosts = [] then [.ofName "localhost"] else hosts

/-- The numbers that should count over those of a URL: the one that is set, or else those of the
URL. -/
def portNumbersOver (o : ConnectOptions) (numbers : List Nat) : List Nat :=
  match o.portNumber with
  | some n => [n]
  | none => numbers

/-- Whether the options have a URL in which a server stands. -/
def NamesServer (o : ConnectOptions) : Prop :=
  ∃ url rest, o.url = some url ∧ UrlText.dropScheme? url.toList = some rest ∧
    UrlText.servers rest ≠ []

/-- A URL with a server names a host and a number. -/
theorem names_of_namesServer (hserver : o.NamesServer) (h : o.urlSettings = .ok s) :
    s.NamesServer := by
  obtain ⟨url, rest, hurl, hscheme, hservers⟩ := hserver
  rw [urlSettings, hurl] at h
  dsimp only at h
  rw [Settings.ofText?, hscheme] at h
  dsimp only at h
  split at h
  · next settings hread =>
    obtain rfl := Except.ok.inj h
    exact UrlText.namesServer_ofRest? hservers hread
  · cases h

/-- Behind the hosts of the URL stands the server that the options name. -/
theorem hosts_withServer_of_server {server : Host} (h : o.server? = some server) (s : Settings) :
    (o.withServer s).hosts = s.hosts ++ [server] := by
  rw [server?] at h
  rw [withServer]
  -- The socket counts before the host.
  cases hsocket : o.socket with
  | some directory =>
    rw [hsocket] at h
    obtain rfl := Option.some.inj h
    rfl
  | none =>
    cases hhost : o.host with
    | some host =>
      rw [hsocket, hhost] at h
      obtain rfl := Option.some.inj h
      rfl
    | none =>
      rw [hsocket, hhost] at h
      cases h

/-- Options without a server leave the hosts of the URL, or stand for this machine. -/
theorem hosts_withServer_of_none (h : o.server? = none) (s : Settings) :
    (o.withServer s).hosts = o.hostsOver s.hosts := by
  rw [server?] at h
  obtain ⟨hsocket, hhost⟩ : o.socket = none ∧ o.host = none := by
    cases hsocket : o.socket <;> cases hhost : o.host <;> simp [hsocket, hhost] at h ⊢
  rw [withServer, hsocket, hhost, hostsOver, server?, hsocket, hhost]
  cases hs : s.hosts with
  | nil =>
    rw [List.isEmpty_nil, if_pos rfl, Settings.addHost, hs]
    rfl
  | cons host hosts => simp [hs]

/-- The server of the options alone is the host exactly if there is none or if the URL has no
host. -/
theorem hosts_withServer_iff (o : ConnectOptions) (s : Settings) :
    (o.withServer s).hosts = o.hostsOver s.hosts ↔ o.server? = none ∨ s.hosts = [] := by
  cases hserver : o.server? with
  | none => simp [hosts_withServer_of_none hserver]
  | some server => simp [hosts_withServer_of_server hserver, hostsOver, hserver]

/-- A server is added to the hosts alone. -/
theorem withServer_eq (o : ConnectOptions) (s : Settings) :
    o.withServer s = { s with hosts := (o.withServer s).hosts } := by
  rw [withServer]
  split
  · rfl
  · rfl
  · split <;> rfl

/-- The options over the settings of the URL, if it is read. -/
theorem settings_eq (h : o.urlSettings = .ok s) :
    o.settings = .ok { s with
      hosts := (o.withServer s).hosts
      portNumbers := s.portNumbers ++ o.portNumber.toList
      database := o.database <|> s.database
      user := o.username <|> s.user
      password := o.password.map Text.utf8 <|> s.password
      applicationName := o.applicationName <|> s.applicationName } := by
  have hserver := withServer_eq o s
  rw [settings, h]
  show Except.ok _ = Except.ok _
  rw [hserver]

/-- Whenever the URL is read there are settings, in which the database, the user, the password and
the name of the application are those that are set, and else those of the URL. The server that is
set and the number that is set are added behind the hosts and the numbers of the URL; they are the
only ones exactly if the URL has none, and a URL in which a server stands has a host and a
number. -/
theorem overlays_iff (h : o.urlSettings = .ok s) :
    ∃ t, o.settings = .ok t ∧
      (t.hosts = o.hostsOver s.hosts ↔ o.server? = none ∨ s.hosts = []) ∧
      (t.portNumbers = o.portNumbersOver s.portNumbers ↔
        o.portNumber = none ∨ s.portNumbers = []) ∧
      (∀ server ∈ o.server?, t.hosts = s.hosts ++ [server]) ∧
      (∀ n ∈ o.portNumber, t.portNumbers = s.portNumbers ++ [n]) ∧
      t.database = (o.database <|> s.database) ∧
      t.user = (o.username <|> s.user) ∧
      t.password = (o.password.map Text.utf8 <|> s.password) ∧
      t.applicationName = (o.applicationName <|> s.applicationName) ∧
      (o.NamesServer → s.hosts ≠ [] ∧ s.portNumbers ≠ []) := by
  refine ⟨_, settings_eq h, hosts_withServer_iff o s, ?numbers, ?server, ?number, rfl, rfl, rfl,
    rfl, fun hserver => names_of_namesServer hserver h⟩
  case numbers =>
    cases hnumber : o.portNumber <;> simp [portNumbersOver, hnumber]
  case server =>
    intro server hserver
    exact hosts_withServer_of_server hserver s
  case number =>
    intro n hn
    simp [Option.mem_def.1 hn]

/-- A URL with a user and parameters, but without a server, under a socket and a host, a number and a
database: the socket and the number that are set are the only ones. -/
theorem overlays_urlWithoutServer :
    let o : ConnectOptions :=
      { url := some "postgresql://u:p@/app?application_name=svc"
        socket := some "/run", host := some "h", portNumber := some 6543, database := some "other" }
    let s : Settings :=
      { user := some "u", password := some (Text.utf8 "p")
        database := some "app", applicationName := some "svc" }
    o.urlSettings = .ok s ∧
      ∃ t, o.settings = .ok t ∧ t.hosts = [.unix "/run"] ∧ t.portNumbers = [6543] ∧
        t.database = some "other" ∧ t.user = some "u" ∧ t.password = some (Text.utf8 "p") ∧
        t.applicationName = some "svc" := by
  intro o s
  have hread : Settings.ofText? "postgresql://u:p@/app?application_name=svc" = some s := by
    decide +kernel
  have hurl : o.urlSettings = .ok s := by
    simp only [o, urlSettings, hread]
  obtain ⟨t, ht, hhosts, hnumbers, -, -, hdatabase, huser, hpassword, hname, -⟩ := overlays_iff hurl
  exact ⟨hurl, t, ht, hhosts.2 (.inr rfl), hnumbers.2 (.inr rfl), hdatabase, huser, hpassword, hname⟩

/-- A URL with a server under a host and a number: the server of the URL still comes first. -/
theorem keeps_server_of_url :
    let o : ConnectOptions :=
      { url := some "postgres://u@h/db", host := some "h2", portNumber := some 1 }
    let s : Settings :=
      { user := some "u", database := some "db", hosts := [.tcp "h"], portNumbers := [5432] }
    o.urlSettings = .ok s ∧
      o.settings = .ok { s with hosts := [.tcp "h", .tcp "h2"], portNumbers := [5432, 1] } ∧
      o.hostsOver s.hosts = [.tcp "h2"] ∧ o.portNumbersOver s.portNumbers = [1] := by
  intro o s
  have hread : Settings.ofText? "postgres://u@h/db" = some s := by decide +kernel
  have hurl : o.urlSettings = .ok s := by
    simp only [o, urlSettings, hread]
  exact ⟨hurl, settings_eq hurl, rfl, rfl⟩

end ConnectOptions

end Postgres

end BoundSql
