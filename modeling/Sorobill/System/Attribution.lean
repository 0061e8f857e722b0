/-
  Sorobill.System.Attribution
  ───────────────────────────
  **CALLS AND THE OPERATIONS THAT MAKE THEM.**

  A law on operations says of every operation which calls it may make in which
  state.  It is shown program by program, for calls that are known to be lawful,
  and then holds of every call of every interleaving.

    • `OperationLaw`, `within`, `keptTo` — programs that keep a law;
    • `within_call`, `within_calls`, `under_lawful` — the rules;
    • `governs_attributed` — **a law that every operation keeps governs the
      server**;
    • `namedServer`, `ReachedIn`, `ReachedIn.sound` — the running server, each
      execution under the name of its operation.
-/
import Sorobill.System.Handlers

namespace Sorobill

open Effect
open Relational

/-! ## §1. Programs of the services. -/

/-- A call of the services that the server has served. -/
abbrev CoreEvent : Type := Effect.Event Api Server ServerEnv

/-- The calls that an operation may make. -/
abbrev OperationLaw : Type := ServerOperation → Server → ServerCall → Prop

section Services

/-- Lawful calls of the services, kept to what `L` says of the execution. -/
def servicesUnder {σ : Type} (L : σ → Server → ServerCall → Prop) (d : Epoch) :
    Growth coreApi σ where
  valid := Server.Valid d
  grows := Server.Grows
  admits e := e.call.Lawful d e.before
  lawful v e := L v e.before (.core e.call)
  refl := Server.Grows.refl
  trans := Server.Grows.trans
  step _ e hvalid hlawful _ := (services d).step () e hvalid trivial hlawful

/-- **What is known after lawful calls** is known after those that are kept to
the law as well. -/
theorem under_lawful {σ α : Type} {L : σ → Server → ServerCall → Prop} {d : Epoch} {s : Server}
    {v : σ} {track : σ → CoreEvent → σ} {p : Service α} {Q : Post Api Server Unit α}
    {R : Post Api Server σ α} (hp : Safe (lawfully d) p Q s ())
    (hlaw : Safe ((servicesUnder L d).contract track) p R s v) :
    Safe ((servicesUnder L d).contract track) p (fun r s₁ v₁ => Q r s₁ () ∧ R r s₁ v₁) s v :=
  Safe.both (C := (servicesUnder L d).contract track) (D := lawfully d)
    (E := (servicesUnder L d).contract track) (f := fun _ => ()) (g := fun v => v)
    (fun _ _ h => ⟨h, h⟩) (fun _ _ h => ⟨h.1, trivial⟩) (fun _ _ h _ => h)
    (fun _ _ _ h => h) (fun _ _ => ⟨rfl, rfl⟩) hp hlaw

variable {L : OperationLaw} {d : Epoch} {s : Server} {op : ServerOperation} {α : Type}

abbrev within (L : OperationLaw) (d : Epoch) : Contract coreApi ServerOperation :=
  (servicesUnder L d).contract (fun op _ => op)

/-- A footprint of calls that the operation may make once `K` is known. -/
theorem within_calls {F : Call → Prop} {K : Server → Prop}
    (hK : ∀ s s₁ : Server, s.Grows s₁ → K s → K s₁)
    (hF : ∀ c (s : Server), F c → K s → L op s (.core c)) {p : Service α}
    (hs : K s) (hp : Calls api F p) : Safe (within L d) p (fun _ _ _ => True) s op := by
  refine (Growth.safe_calls (G := servicesUnder L d) (F := F) (K := K) (fun _ => rfl) hK ?_ hs
    (calls_onServer hp)).mono (fun _ _ _ _ => trivial)
  exact fun e hc hk _ _ => hF e.call e.before hc hk

/-- One awaited call that the operation may make. -/
theorem within_call {c : Call} {Q : Post Api Server ServerOperation c.Reply}
    (hc : ∀ s₁ : Server, s.Grows s₁ → s₁.Valid d → L op s₁ (.core c))
    (h : ∀ (s₁ : Server) env r w, s₁.Valid d → api.serve c env s₁.core = (r, w) →
      s.Grows (s₁.withCore w) → Q r (s₁.withCore w) op) :
    Safe (within L d) (await c) Q s op := by
  refine Growth.safe_call (G := servicesUnder L d) (fun s₁ env hgrows hvalid _ => ?_)
  exact ⟨hc s₁ hgrows hvalid, fun _ hgrows' => h s₁ env.toEnv _ _ hvalid rfl hgrows'⟩

end Services

/-! ## §2. The whole server. -/

section Running

variable {σ : Type} {d : Epoch}

/-- Lawful calls of the server, kept to what `L` says of the execution. -/
def serverUnder (L : σ → Server → ServerCall → Prop) (d : Epoch) : Growth serverApi σ where
  valid := Server.Valid d
  grows := Server.Grows
  admits e := e.call.Lawful d e.before
  lawful v e := L v e.before e.call
  refl := Server.Grows.refl
  trans := Server.Grows.trans
  step _ e hvalid hlawful _ := (ledger d).step () e hvalid trivial hlawful

/-- **Lawful calls, each within the law of its execution.** -/
def attributed (L : σ → Server → ServerCall → Prop) (d : Epoch) : Growth serverApi σ where
  valid := Server.Valid d
  grows := Server.Grows
  admits _ := True
  lawful v e := e.call.Lawful d e.before ∧ L v e.before e.call
  refl := Server.Grows.refl
  trans := Server.Grows.trans
  step _ e hvalid _ hlawful := (ledger d).step () e hvalid trivial hlawful.1

/-- **A law that every operation keeps governs the server.** -/
theorem governs_attributed {L : σ → Server → ServerCall → Prop} {view : ServerOperation → σ}
    {track : σ → ServerEvent → σ} (allow : Condition ServerApi Server ServerEnv σ)
    (hlaw : ∀ (op : ServerOperation) (s : Server),
      Safe ((serverUnder L d).contract track) (op.body d.toDeployment) (fun _ _ _ => True) s
        (view op)) :
    (attributed L d).Governs (S := server d.toDeployment view track) allow where
  start s op hvalid henabled := by
    have hlawful : Safe (lawfulServer d) (op.body d.toDeployment) (fun _ _ _ => True) s () :=
      body_backed hvalid henabled
    exact (Safe.both (C := (attributed L d).contract track) (D := lawfulServer d)
      (E := (serverUnder L d).contract track) (f := fun _ => ()) (g := fun v => v)
      (fun _ _ h => ⟨h, h⟩) (fun _ _ h => h) (fun _ _ h hl => ⟨h.1, hl⟩)
      (fun _ _ hl hm => ⟨hl, hm⟩) (fun _ _ => ⟨rfl, rfl⟩) hlawful (hlaw op s)).mono
      (fun _ _ _ _ => trivial)
  admits _ _ _ _ := trivial
  drift s s' hdrift hvalid :=
    have hstep : s.Step d s' := drift_step hdrift
    ⟨hvalid.step hstep, hstep.grows⟩

end Running

/-! ## §3. Executions under the name of their operation. -/

section Named

variable {L : OperationLaw} {d : Epoch} {s : Server} {op : ServerOperation} {α : Type}

abbrev keptTo (L : OperationLaw) (d : Epoch) : Contract serverApi ServerOperation :=
  (serverUnder L d).contract (fun op _ => op)

/-- A program of calls that the operation may make whatever is stored. -/
theorem body_of_calls {p : Handler Unit} (hp : Calls serverApi (fun c => ∀ s, L op s c) p) :
    Safe (keptTo L d) p (fun _ _ _ => True) s op :=
  (Growth.safe_lawful (G := serverUnder L d) (fun _ => rfl) (fun e hc _ _ => hc e.before) hp).mono
    (fun _ _ _ _ => trivial)

/-- A program of the services, on the server. -/
theorem body_of_services {p : Service α} (hp : Safe (within L d) p (fun _ _ _ => True) s op) :
    Safe (keptTo L d) (p.translate servicesOnServer) (fun _ _ _ => True) s op :=
  Growth.safe_translate (G := servicesUnder L d) (Q := fun _ _ => True) servicesImplemented
    (fun _ _ h => h) (fun _ h => h) (fun _ _ _ h => h) (fun _ _ _ _ h => h)
    (fun _ _ _ _ => rfl) hp

/-- The running server, each execution under the name of its operation. -/
abbrev namedServer (d : Deployment) :
    System ServerApi Server ServerEnv ServerOperation ServerOperation :=
  server d (fun op => op) (fun op _ => op)

/-- The states the server reaches, each execution under the name of its
operation. -/
def ReachedIn (d : Deployment) (P : Pool ServerApi Server ServerOperation) : Prop :=
  Pool.Moves (namedServer d) anyone (fun _ => True) ⟨Server.fresh, []⟩ P

/-- Every call that is about to be made there keeps the law. -/
theorem ReachedIn.sound {d : Deployment} {P : Pool ServerApi Server ServerOperation}
    (hlaw : ∀ (op : ServerOperation) (s : Server),
      Safe (keptTo L { d with }) (op.body d) (fun _ _ _ => True) s op)
    (h : ReachedIn d P) : Growth.Sound (S := namedServer d) (attributed L { d with }) P :=
  (Growth.moves (governs_attributed (d := { d with }) anyone hlaw) h
    (Growth.sound_idle (fresh_valid d))).1

end Named

end Sorobill
