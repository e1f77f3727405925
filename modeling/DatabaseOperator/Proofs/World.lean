import DatabaseOperator.Proofs.Remote
import DatabaseOperator.Simulation.World

namespace DatabaseOperator

/-- However the calls are served, they and their answers are a trace of the program. -/
theorem Dialogue.exists_runs_serve {I : Interface} {α σ : Type} (x : Dialogue I α)
    (answer : (c : I.Call) → StateM σ (I.Answer c)) (s : σ) :
    ∃ t, x.Runs t ((x.serve answer).run s).1 := by
  induction x generalizing s with
  | done a => exact ⟨[], .done a⟩
  | ask c next ih =>
    obtain ⟨t, runs⟩ := ih ((answer c).run s).1 ((answer c).run s).2
    exact ⟨_, .ask _ runs⟩

namespace World

variable {w : World} {overrides : EndpointOverrides} {server : SimulatedServer}
  {session : Option Session}

/-- The client that a session uses. -/
def connection (session : Option Session) : Option Connection :=
  session.map fun s => ⟨s.client, s.bearer⟩

theorem run_connect_refused {token region : String} {e : ProviderError}
    (remote : w.backend = .remote overrides server session)
    (refused : Client.connect overrides token region = .error e) :
    (World.connect token region).run w = (.error e, w) := by
  simp only [World.connect, StateT.run_bind, StateT.run_get, pure_bind, remote, refused]
  rfl

theorem run_connect {token region : String} {c : Client}
    (remote : w.backend = .remote overrides server session)
    (connected : Client.connect overrides token region = .ok c) :
    ∃ reached, (World.connect token region).run w =
      (.ok (), { w with backend := .remote overrides reached (some ⟨c, none, reached⟩) }) := by
  simp only [World.connect, StateT.run_bind, StateT.run_get, pure_bind, remote, connected]
  exact ⟨_, rfl⟩

/-- What a world answers to one call is what the calls are carried out to. -/
theorem carried_answer (c : PassCall) (remote : w.backend = .remote overrides server session) :
    ∃ h₁ server' session', ((World.answer c).run w).2.backend = .remote overrides server' session' ∧
      ∀ t h, Carried overrides (connection session') t h →
        Carried overrides (connection session) (⟨c, ((World.answer c).run w).1⟩ :: t) (h₁ ++ h) := by
  cases c with
  | resource c =>
    refine ⟨[], server, session, ?_, fun t h carried =>
      .apart _ (fun _ _ => PassCall.noConfusion) (fun _ => PassCall.noConfusion) carried⟩
    cases c <;> exact remote
  | secret c =>
    exact ⟨[], server, session, remote, fun t h carried =>
      .apart _ (fun _ _ => PassCall.noConfusion) (fun _ => PassCall.noConfusion) carried⟩
  | now =>
    exact ⟨[], server, session, remote, fun t h carried =>
      .apart _ (fun _ _ => PassCall.noConfusion) (fun _ => PassCall.noConfusion) carried⟩
  | connect token region =>
    cases connected : Client.connect overrides token region with
    | error e =>
      have answered : (World.answer (.connect token region)).run w = (.error e, w) :=
        run_connect_refused remote connected
      rw [answered]
      exact ⟨[], server, session, remote, fun t h carried => .refused connected carried⟩
    | ok client =>
      obtain ⟨reached, run⟩ := run_connect remote connected
      have answered : (World.answer (.connect token region)).run w = (.ok (), _) := run
      rw [answered]
      exact ⟨[], reached, some ⟨client, none, reached⟩, rfl,
        fun t h carried => .connected connected carried⟩
  | provider c =>
    obtain ⟨stores, backend, clock, journal⟩ := w
    obtain rfl : backend = _ := remote
    cases session with
    | none => exact ⟨[], server, none, rfl, fun t h carried => .unconnected carried⟩
    | some s =>
      let reached := { s.server with received := [] }
      obtain ⟨h₁, runs⟩ := Dialogue.exists_runs_serve ((s.client.perform c).run.run s.bearer)
        SimulatedServer.answer reached
      let done := ((s.client.perform c).run.run s.bearer).serve SimulatedServer.answer |>.run reached
      exact ⟨h₁, server, some ⟨s.client, done.1.2, done.2⟩, rfl,
        fun t h carried => .performed runs carried⟩

theorem exists_carried {α : Type} (x : Dialogue pass α)
    (remote : w.backend = .remote overrides server session) :
    ∃ t h, x.Runs t ((x.serve World.answer).run w).1 ∧
      Carried overrides (connection session) t h := by
  induction x generalizing w server session with
  | done a => exact ⟨[], [], .done a, .done _⟩
  | ask c next ih =>
    obtain ⟨h₁, server', session', remote', carries⟩ := carried_answer c remote
    obtain ⟨t, h, runs, carried⟩ := ih _ remote'
    exact ⟨_, _, .ask _ runs, carries t h carried⟩

/-- A pass in such a world is carried out over HTTP. -/
theorem exists_passRun (delay : Nat) (namespaceName name : String)
    (remote : w.backend = .remote overrides server session) :
    ∃ (p : PassRun delay namespaceName name) (h : List (Exchange http)),
      p.result = ((World.run (Pass.run delay namespaceName name)).run w).1 ∧
      Carried overrides (connection session) p.trace h := by
  obtain ⟨t, h, runs, carried⟩ := exists_carried (Pass.run delay namespaceName name).run remote
  exact ⟨⟨t, _, runs⟩, h, rfl, carried⟩

end World

end DatabaseOperator
