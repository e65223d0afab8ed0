import BoundSql.Postgres.Driver
import BoundSql.Postgres.ScriptedServer
import BoundSql.Proofs.Engine.Steps
import BoundSql.Proofs.Keyed
import BoundSql.Proofs.Sql.Numbering

/-!
# What the server is sent

A statement with named placeholders is prepared with numbers in their places, and its values are
collected by name until it is executed. So what the server is sent with an execution depends on the
text and on everything that was bound before.

* `Server.journaled`: a server that keeps a journal of what it is sent;
* `NumberedStatement.bindCalls_eq`: the values of a statement after any values were bound to it;
* `Server.runStatement_apply`: what an execution sends, and what comes of it;
* `Server.execute_faithful`: both together, from the text of a statement to its execution.
-/

namespace BoundSql.Postgres

variable {τ α : Type}

/-- Do something on a server and write it into the journal. -/
def journaling (event : ServerEvent) (action : StateM τ α) : StateM (τ × List ServerEvent) α :=
  fun s =>
    let done := action s.1
    (done.1, done.2, s.2 ++ [event])

/-- A server that keeps a journal of what it is sent. -/
def Server.journaled (server : Server τ) : Server (τ × List ServerEvent) where
  start startup := journaling (.start startup) (server.start startup)
  prepare sql := journaling (.prepare sql) (server.prepare sql)
  execute prepared cells := journaling (.execute cells) (server.execute prepared cells)
  command sql := journaling (.command sql) (server.command sql)

/-- The report for a placeholder without a value. -/
def missingValue (name : String) : ErrorInfo :=
  { sqlstate := "07002", message := "no value bound for " ++ name }

/-- The value that was bound last under a name. -/
def lastBound? (calls : List (String × Bound)) (name : String) : Option Bound :=
  Keyed.get? name calls.reverse

/-- What is bound last under a name is found, and under other names what was bound before. -/
theorem lastBound?_concat (calls : List (String × Bound)) (call : String × Bound) (name : String) :
    lastBound? (calls ++ [call]) name =
      if call.1 = name then some call.2 else lastBound? calls name := by
  rw [lastBound?, List.reverse_append, List.reverse_singleton, List.singleton_append, Keyed.get?]
  rfl

/-- Values under other names make no difference to what is bound under a name. -/
theorem lastBound?_filter {names : List String} {name : String} (h : name ∈ names)
    (calls : List (String × Bound)) :
    lastBound? (calls.filter fun call => call.1 ∈ names) name = lastBound? calls name := by
  induction calls using List.reverseRecOn with
  | nil => rfl
  | append_singleton calls call ih =>
    rw [List.filter_append, lastBound?_concat]
    by_cases hcall : call.1 ∈ names
    · rw [List.filter_cons_of_pos (by simpa using hcall), List.filter_nil, lastBound?_concat, ih]
    · have hne : call.1 ≠ name := fun heq => hcall (heq ▸ h)
      rw [List.filter_cons_of_neg (by simpa using hcall), List.filter_nil, List.append_nil, ih,
        if_neg hne]

namespace NumberedStatement

/-- Bind values to names, one after the other. -/
def bindCalls (calls : List (String × Bound)) (st : NumberedStatement) : NumberedStatement :=
  calls.foldl (fun st call => st.bind call.1 call.2) st

/-- Slots for names, with the values that were bound last. -/
def slotsAfter (names : List String) (calls : List (String × Bound)) :
    List (String × Option Bound) :=
  names.map fun name => (name, lastBound? calls name)

/-- Slots hold what was bound last under their names, and binding changes nothing else. -/
theorem bindCalls_eq {names : List String} {st : NumberedStatement}
    (h : st.slots = slotsAfter names []) (calls : List (String × Bound)) :
    st.bindCalls calls = { st with slots := slotsAfter names calls } := by
  -- Each call is bound to what the calls before it leave.
  induction calls using List.reverseRecOn with
  | nil => rw [← h]; rfl
  | append_singleton calls call ih =>
    rw [bindCalls, List.foldl_append]
    change (st.bindCalls calls).bind call.1 call.2 = _
    rw [ih, bind]
    refine congrArg (fun slots => { st with slots }) ?_
    rw [slotsAfter, slotsAfter, List.map_map]
    refine List.map_congr_left fun name _ => ?_
    rw [Function.comp_apply, lastBound?_concat]
    dsimp only
    by_cases hname : name = call.1
    · rw [if_pos hname, if_pos hname.symm, hname]
    · rw [if_neg hname, if_neg (Ne.symm hname)]

/-- Values under names without a slot make no difference. -/
theorem slotsAfter_filter (names : List String) (calls : List (String × Bound)) :
    slotsAfter names (calls.filter fun call => call.1 ∈ names) = slotsAfter names calls :=
  List.map_congr_left fun _ hname => by rw [lastBound?_filter hname]

/-- The values of slots are those bound last, unless a name has none; then the first such name is
reported. -/
theorem values_slotsAfter (names : List String) (calls : List (String × Bound)) :
    values (slotsAfter names calls) =
      match names.find? fun name => (lastBound? calls name).isNone with
      | some name => .error (missingValue name)
      | none => .ok (names.filterMap (lastBound? calls)) := by
  -- On the slots in their order: the first without a value ends the collection.
  induction names with
  | nil => rfl
  | cons name names ih =>
    rw [slotsAfter, List.map_cons, List.find?_cons, List.filterMap_cons]
    cases hbound : lastBound? calls name with
    | none => rfl
    | some bound =>
      rw [values]
      change (values (slotsAfter names calls)).map _ = _
      rw [ih]
      dsimp only [Option.isNone_some]
      cases names.find? fun name => (lastBound? calls name).isNone <;> rfl

end NumberedStatement

/-- The binary forms of values for the types of parameters, if there are as many values as
parameters and each has such a form. -/
def cells? (types : List ColumnType) (values : List Bound) : Option (List Cell) :=
  if values.length = types.length then
    (types.zip values).mapM fun parameter => boundCell? parameter.1 parameter.2
  else none

/-- As many values as there are parameters are encoded one by one, until one has no binary form. -/
theorem encodeAll_cases {types : List ColumnType} {values : List Bound} (index : Nat)
    (h : values.length = types.length) :
    (∃ cells, encodeAll boundCell? index types values = .ok cells ∧
      cells? types values = some cells) ∨
    (∃ failed, encodeAll boundCell? index types values = .error (.encoding failed) ∧
      cells? types values = none) := by
  rw [cells?, if_pos h]
  induction types generalizing index values with
  | nil =>
    obtain rfl := List.length_eq_zero_iff.1 h
    exact .inl ⟨[], rfl, rfl⟩
  | cons type types ih =>
    cases values with
    | nil => cases h
    | cons value values =>
      rw [encodeAll, List.zip_cons_cons, List.mapM_cons]
      dsimp only
      cases boundCell? type value with
      | none => exact .inr ⟨index, rfl, rfl⟩
      | some cell =>
        rcases ih (index + 1) (Nat.succ.inj h) with ⟨cells, hok, hcells⟩ | ⟨failed, herror, hcells⟩
        · exact .inl ⟨cell :: cells, by rw [hok]; rfl, by rw [hcells]; rfl⟩
        · exact .inr ⟨failed, by rw [herror]; rfl, by rw [hcells]; rfl⟩

namespace Server

variable {server : Server τ}

/-- Values that have binary forms are sent in one execution; others are not sent at all. -/
theorem send_apply (server : Server τ) (prepared : Prepared) (values : List Bound) (s : τ) :
    match cells? prepared.params values with
    | some cells => server.send boundCell? prepared values s =
        (.ok (server.execute prepared cells s).1, (server.execute prepared cells s).2)
    | none => ∃ e : DriverError, server.send boundCell? prepared values s = (.error e, s) ∧
        e.info.sqlstate = "HY000" := by
  rw [send]
  by_cases hlength : values.length = prepared.params.length
  · rw [if_neg (not_not.2 hlength)]
    rcases encodeAll_cases 0 hlength with ⟨cells, hok, hcells⟩ | ⟨failed, herror, hcells⟩
    · rw [hcells, hok]
      rfl
    · rw [hcells, herror]
      exact ⟨_, rfl, rfl⟩
  · rw [if_pos hlength, cells?, if_neg hlength]
    exact ⟨_, rfl, rfl⟩

/-- Executing a statement: without all values it is not sent; with them the values are sent, and
the answer is read. -/
theorem runStatement_apply (st : NumberedStatement) (s : τ) :
    server.runStatement st s =
      match NumberedStatement.values st.slots with
      | .error info => ((.error info, st), s)
      | .ok values =>
        match server.send boundCell? st.prepared values s with
        | (.error e, s) => ((.error e.info, st), s)
        | (.ok answer, s) =>
          match readAnswer st.prepared.columns answer with
          | .error info => ((.error info, st), s)
          | .ok (rows, affected) => ((.ok affected, { st with rows, affected }), s) := by
  have hget : (get : StatementM τ NumberedStatement ErrorInfo NumberedStatement) st s =
      ((.ok st, st), s) := rfl
  rw [runStatement, StatementM.bind_apply, hget]
  dsimp only
  cases NumberedStatement.values st.slots with
  | error info => rfl
  | ok values =>
    dsimp only
    rw [StatementM.bind_apply, StatementM.outcome_apply, ConnectionM.onStatement_apply]
    rcases server.send boundCell? st.prepared values s with ⟨e | answer, s⟩
    · rfl
    · dsimp only
      cases readAnswer st.prepared.columns answer <;> rfl

/-- A statement is prepared with numbers in the places of its placeholders, and nothing is bound to
it yet. -/
theorem prepareNamed_ok {sql : String} {st : NumberedStatement} {s s' : τ}
    (h : server.prepareNamed sql s = (.ok st, s')) :
    (∃ prepared, server.prepare (Sql.positional sql).sql s = (.ok prepared, s')) ∧
      st.slots = NumberedStatement.slotsAfter (Sql.placeholders sql).eraseDups [] := by
  have hprepare : server.prepareNamed sql s =
      match server.prepare (Sql.positional sql).sql s with
      | (.error info, s) => (.error info, s)
      | (.ok prepared, s) =>
        (.ok { prepared, slots := (Sql.positional sql).names.map fun name => (name, none) },
          s) := by
    rw [prepareNamed, ConnectionM.bind_apply, ExceptT.mk]
    rcases server.prepare (Sql.positional sql).sql s with ⟨_ | _, _⟩ <;> rfl
  rw [hprepare] at h
  rcases hserver : server.prepare (Sql.positional sql).sql s with ⟨info | prepared, s₁⟩
  · rw [hserver] at h
    cases h
  · rw [hserver] at h
    obtain ⟨hst, rfl⟩ := Prod.mk.inj h
    obtain rfl := Except.ok.inj hst
    rw [← Sql.positional_names]
    exact ⟨⟨prepared, rfl⟩, rfl⟩

/-- Binding values to a statement always succeeds, and the server is not asked. -/
theorem bindAll_apply (calls : List (String × Bound)) (st : NumberedStatement) (s : τ) :
    (connection server).bindAll calls st s = ((.ok (), st.bindCalls calls), s) := by
  induction calls generalizing st with
  | nil => rfl
  | cons call calls ih => exact ih (st.bind call.1 call.2)

end Server

/-- How an execution answers to the names of a statement and to the calls that have bound values:
`result` is its result, and `sent` is what it has sent to the server. -/
structure Answers (names : List String) (calls : List (String × Bound)) (types : List ColumnType)
    (result : Except ErrorInfo Nat) (sent : List ServerEvent) : Prop where
  /-- If every name has a value, one value for each name, the last that was bound to it, is sent in
  one execution, provided that these values have binary forms for the parameters. -/
  values : ∀ values, names.map (lastBound? calls) = values.map some →
    sent = (cells? types values).toList.map .execute
  /-- Otherwise nothing is sent, and the first name without a value is reported. -/
  missing : ∀ name, names.find? (fun name => (lastBound? calls name).isNone) = some name →
    result = .error (missingValue name) ∧ sent = []
  /-- Without anything being sent, the report of a missing value is made in no other case. -/
  missing_iff : (∃ info, result = .error info ∧ info.sqlstate = "07002" ∧ sent = []) ↔
    ∃ name ∈ names, lastBound? calls name = none

/-- Where every name has a value, these values are what is found under the names. -/
theorem filterMap_lastBound? {names : List String} {calls : List (String × Bound)}
    {values : List Bound} (h : names.map (lastBound? calls) = values.map some) :
    names.filterMap (lastBound? calls) = values := by
  have hid : (names.map (lastBound? calls)).filterMap id = names.filterMap (lastBound? calls) := by
    rw [List.filterMap_map]
    rfl
  rw [← hid, h, List.filterMap_map]
  exact List.filterMap_some

/-- An execution answers to the slots of its statement. -/
theorem Server.answers_runStatement (server : Server τ) {names : List String}
    {calls : List (String × Bound)} {st : NumberedStatement}
    (hslots : st.slots = NumberedStatement.slotsAfter names calls) (s : τ × List ServerEvent) :
    let after := server.journaled.runStatement st s
    ∃ sent, after.2.2 = s.2 ++ sent ∧ Answers names calls st.prepared.params after.1.1 sent := by
  intro after
  have hvalues := NumberedStatement.values_slotsAfter names calls
  rw [← hslots] at hvalues
  simp only [after]
  rw [runStatement_apply, hvalues]
  cases hfind : names.find? fun name => (lastBound? calls name).isNone with
  | some name =>
    have hnone : lastBound? calls name = none := by simpa using List.find?_some hfind
    have hmem : name ∈ names := List.mem_of_find?_eq_some hfind
    refine ⟨[], (List.append_nil _).symm, ?_, ?_, ?_⟩
    · intro values hvalues
      have hvalue : lastBound? calls name ∈ values.map some :=
        hvalues ▸ List.mem_map_of_mem hmem
      rw [hnone] at hvalue
      obtain ⟨_, -, hsome⟩ := List.mem_map.1 hvalue
      cases hsome
    · intro other hother
      obtain rfl : name = other := Option.some.inj (hfind.symm.trans hother)
      exact ⟨rfl, rfl⟩
    · exact iff_of_true ⟨_, rfl, rfl, rfl⟩ ⟨name, hmem, hnone⟩
  | none =>
    -- Every name has a value, so what fails from here on is no report of a missing one.
    have hall : ¬∃ name ∈ names, lastBound? calls name = none := by
      rintro ⟨name, hname, hnone⟩
      exact absurd (List.find?_eq_none.1 hfind name hname) (by simp [hnone])
    have hmissing : ∀ name, names.find? (fun name => (lastBound? calls name).isNone) ≠ some name :=
      fun name hname => nomatch hfind.symm.trans hname
    have hsend := send_apply server.journaled st.prepared (names.filterMap (lastBound? calls)) s
    dsimp only
    -- Values that have binary forms reach the server, and others do not.
    cases hcells : cells? st.prepared.params (names.filterMap (lastBound? calls)) with
    | some cells =>
      rw [hcells] at hsend
      rw [hsend]
      refine ⟨[.execute cells], ?_, ?_, ?_, ?_⟩
      · dsimp only
        generalize (server.journaled.execute st.prepared cells s).1 = answer
        cases readAnswer st.prepared.columns answer <;> rfl
      · intro values hvalues
        rw [← filterMap_lastBound? hvalues, hcells]
        rfl
      · exact fun name hname => absurd hname (hmissing name)
      · exact iff_of_false (fun ⟨_, _, _, hsent⟩ => nomatch hsent) hall
    | none =>
      rw [hcells] at hsend
      obtain ⟨e, hsend, hstate⟩ := hsend
      rw [hsend]
      refine ⟨[], (List.append_nil _).symm, ?_, ?_, ?_⟩
      · intro values hvalues
        rw [← filterMap_lastBound? hvalues, hcells]
        rfl
      · exact fun name hname => absurd hname (hmissing name)
      · refine iff_of_false ?_ hall
        rintro ⟨info, hinfo, hcode, -⟩
        obtain rfl := Except.error.inj hinfo
        exact absurd (hstate.symm.trans hcode) (by decide)

/-- A statement that the server has prepared from the numbered text of its placeholders: whatever
is bound to it afterwards, an execution answers to the placeholders of the text, each taken once in
the order in which they first come up, and to the values that were bound last under them. Binding
under other names makes no difference. -/
theorem Server.execute_faithful (server : Server τ) {sql : String} {st : NumberedStatement}
    {s s₁ : τ × List ServerEvent}
    (hprepare : (connection server.journaled).prepare sql s = (.ok st, s₁))
    (calls : List (String × Bound)) :
    let conn := connection server.journaled
    let names := (Sql.placeholders sql).eraseDups
    let numbered := String.ofList ((Sql.segments sql).flatMap (Sql.Segment.numbered names))
    s₁.2 = s.2 ++ [.prepare numbered] ∧
      ∃ bound, conn.bindAll calls st s₁ = ((.ok (), bound), s₁) ∧
        conn.bindAll (calls.filter fun call => call.1 ∈ names) st s₁ = ((.ok (), bound), s₁) ∧
        ∃ sent, (conn.execute bound s₁).2.2 = s₁.2 ++ sent ∧
          Answers names calls st.prepared.params (conn.execute bound s₁).1.1 sent := by
  intro conn names numbered
  obtain ⟨⟨prepared, hserver⟩, hslots⟩ := prepareNamed_ok hprepare
  have hbound := NumberedStatement.bindCalls_eq hslots calls
  have hfiltered := NumberedStatement.bindCalls_eq hslots (calls.filter fun call => call.1 ∈ names)
  rw [NumberedStatement.slotsAfter_filter] at hfiltered
  refine ⟨?_, { st with slots := NumberedStatement.slotsAfter names calls }, ?_, ?_, ?_⟩
  · have hjournal : (server.journaled.prepare (Sql.positional sql).sql s).2.2 =
        s.2 ++ [.prepare (Sql.positional sql).sql] := rfl
    rw [hserver, Sql.positional_sql] at hjournal
    exact hjournal
  · rw [← hbound]
    exact bindAll_apply calls st s₁
  · rw [← hfiltered]
    exact bindAll_apply _ st s₁
  · exact answers_runStatement server rfl s₁

/-- A statement with a repeated name, a name that is bound twice and a name that is not in the
text: two values are sent, in the order of the text. -/
theorem Server.execute_faithful_repeated :
    let script : ServerScript := { statements := [{ params := [.int8, .text] }] }
    let conn := connection scriptedServer.journaled
    let s : ScriptedServer × List ServerEvent := ({ script }, [])
    let calls : List (String × Bound) := [(":y", ⟨.str, .str "a"⟩), (":z", ⟨.int, .int 9⟩),
      (":x", ⟨.int, .int 2⟩), (":y", ⟨.str, .str "b"⟩)]
    ∃ st s₁ bound, conn.prepare "SELECT :x, :y, :x" s = (.ok st, s₁) ∧
      s₁.2 = [.prepare "SELECT $1, $2, $1"] ∧
      conn.bindAll calls st s₁ = ((.ok (), bound), s₁) ∧
      (conn.execute bound s₁).2.2 = s₁.2 ++
        [.execute [some [0, 0, 0, 0, 0, 0, 0, 2], some [98]]] := by
  intro script conn s calls
  have hpositional : Sql.positional "SELECT :x, :y, :x" =
      ⟨"SELECT $1, $2, $1", [":x", ":y"]⟩ := by decide +kernel
  have hprepare : conn.prepare "SELECT :x, :y, :x" s =
      (.ok { prepared := ⟨0, [.int8, .text], []⟩, slots := [(":x", none), (":y", none)] },
        { script, prepared := 1, journal := [.prepare "SELECT $1, $2, $1"] },
        [.prepare "SELECT $1, $2, $1"]) := by
    change scriptedServer.journaled.prepareNamed "SELECT :x, :y, :x" s = _
    rw [prepareNamed, hpositional]
    rfl
  obtain ⟨-, bound, hbound, -, sent, hsent, hanswers⟩ :=
    execute_faithful scriptedServer hprepare calls
  have hnames : (Sql.placeholders "SELECT :x, :y, :x").eraseDups = [":x", ":y"] := by
    decide +kernel
  rw [hnames] at hanswers
  have hcells := hanswers.values [⟨.int, .int 2⟩, ⟨.str, .str "b"⟩] (by decide +kernel)
  refine ⟨_, _, bound, hprepare, rfl, hbound, ?_⟩
  rw [hsent, hcells]
  decide +kernel

end BoundSql.Postgres
