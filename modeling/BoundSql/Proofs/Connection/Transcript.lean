import BoundSql.Connection.Beside
import BoundSql.Proofs.Engine.Steps

/-!
# Transcripts of connections

A connection can keep a transcript of the texts that it is asked to prepare, whether it can prepare
them or not. Nothing else is written into it, so that what happens to a statement after it was
prepared leaves the transcript alone.

* `Connection.transcribed`: the connection with a transcript;
* `StatementM.Silent`: actions on a statement that write nothing into it.
-/

namespace BoundSql

variable {σ St ε α : Type}

/-- A connection that keeps a transcript of the texts that it is asked to prepare. -/
def Connection.transcribed (conn : Connection σ St) : Connection (σ × List String) St :=
  { conn.beside (List String) with
    prepare := fun sql s =>
      let done := conn.prepare sql s.1
      (done.1, done.2, s.2 ++ [sql]) }

/-- An action on a statement that writes nothing into the transcript. -/
def StatementM.Silent (m : StatementM (σ × List String) St ε α) : Prop := m.Along Eq

namespace Connection

variable (conn : Connection σ St)

/-- Binding values writes nothing. -/
theorem silent_bindAll (binds : BindMap) : (conn.transcribed.bindAll binds).Silent :=
  along_bindAll Eq.refl Eq.trans (fun _ _ _ _ => rfl) binds

/-- Executing a statement writes nothing. -/
theorem silent_execute : conn.transcribed.execute.Silent := fun _ _ => rfl

/-- A callback writes nothing. -/
theorem silent_callback (callback : Callback) : (callback.run conn.transcribed).Silent :=
  callback.along_run Eq.refl Eq.trans (fun _ _ _ _ => rfl) conn.silent_execute

/-- The transaction of a single statement writes nothing. -/
theorem silent_transact {callback : StatementM (σ × List String) St Error Verdict}
    (h : callback.Silent) : (conn.transcribed.transact callback).Silent := by
  intro st s
  have hstart : s.2 = (conn.transcribed.startTransaction s).2.2 := rfl
  have hcommit : ∀ s, s.2 = (conn.transcribed.commit s).2.2 := fun _ => rfl
  have hrollBack : ∀ s, s.2 = (conn.transcribed.rollBack s).2.2 := fun _ => rfl
  rw [transact_apply_snd]
  rcases hs : conn.transcribed.startTransaction s with ⟨_ | _, s₁⟩ <;> rw [hs] at hstart
  · exact hstart
  dsimp only
  have hcallback := hstart.trans (h st s₁)
  rcases hc : callback st s₁ with ⟨⟨_ | _ | _, st₂⟩, s₂⟩ <;> rw [hc] at hcallback
  · exact hcallback.trans (hrollBack s₂)
  · dsimp only
    have hexecute := hcallback.trans (conn.silent_execute st₂ s₂)
    rcases he : conn.transcribed.execute st₂ s₂ with ⟨⟨_ | _, st₃⟩, s₃⟩ <;> rw [he] at hexecute
    · exact hexecute.trans (hrollBack s₃)
    · exact hexecute.trans (hcommit s₃)
  · exact hcallback.trans (hrollBack s₂)

end Connection

/-- A statement that is sent is written into the transcript, and nothing else is, if carrying it out
writes nothing. -/
theorem Engine.transcript_sent (conn : Connection σ St) (c : Compiled)
    {carryOut : StatementM (σ × List String) St Error (Except ErrorInfo Nat)}
    (h : carryOut.Silent) (s : σ × List String) :
    s.2 ++ [c.sql] = (sent conn.transcribed carryOut c s).2 := by
  have hprepare : s.2 ++ [c.sql] = (conn.transcribed.prepare c.sql s).2.2 := rfl
  rw [sent]
  rcases hp : conn.transcribed.prepare c.sql s with ⟨_ | st, s₁⟩ <;> rw [hp] at hprepare
  · exact hprepare
  dsimp only
  have hbind := hprepare.trans (conn.silent_bindAll c.binds st s₁)
  rcases hb : conn.transcribed.bindAll c.binds st s₁ with ⟨⟨_ | _, st₂⟩, s₂⟩ <;> rw [hb] at hbind
  · exact hbind
  · exact hbind.trans (h st₂ s₂)

end BoundSql
