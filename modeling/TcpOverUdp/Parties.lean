import TcpOverUdp.RawTransfer
import TcpOverUdp.Samples
import TcpOverUdp.Lib.Simulation

namespace TcpOverUdp
open CWord

namespace Transfer

def serverEvents (cfg : TransferConfig) (x : Transfer) :
    TransferEvent × (ℕ → ℤ) → Transfer → List SenderEvent
  | (.server e _, _), _ => [e]
  | (.serverRead i now _, _), _ =>
    match cfg.channel.receive x.toServer i with
    | some (a, _) => [.read (.complete a) now]
    | none => []
  | _, _ => []

def clientEvents (cfg : TransferConfig) (x : Transfer) :
    TransferEvent × (ℕ → ℤ) → Transfer → List ClientEvent
  | (.client e, _), _ => [e]
  | (.producerRead i loseData loseAck, junk), _ =>
    match cfg.channel.receive x.toClient i with
    | some (.segment s, _) => [.segment s loseData loseAck junk]
    | _ => []
  | (.closeRead i, _), _ =>
    match cfg.channel.receive x.toClient i with
    | some (m, _) => [.closeRead m.asClientAck]
    | none => []
  | _, _ => []

/-- The sides of a step: the server moves and what it sends is in flight; the client moves, and
the segment it reads was in flight; or the producer skips a record. -/
inductive Sides (cfg : TransferConfig) (x : Transfer) (e : TransferEvent × (ℕ → ℤ)) :
    Transfer → Prop
  | server {e' bufs rest t outs} (hserver : ∀ y, x.serverEvents cfg e y = [e'])
      (hclient : ∀ y, x.clientEvents cfg e y = [])
      (hstep : x.sender.step cfg.server e' = some (t, outs)) :
    Sides cfg x e (x.afterServer cfg e' bufs rest t outs)
  | client {e' rest t outs} (hserver : ∀ y, x.serverEvents cfg e y = [])
      (hclient : ∀ y, x.clientEvents cfg e y = [e']) (hrest : ∀ m ∈ rest, m ∈ x.toClient)
      (hread : ∀ s loseData loseAck junk, e' = .segment s loseData loseAck junk →
        .segment s ∈ x.toClient)
      (hstep : x.client.step cfg.client e' = some (t, outs)) :
    Sides cfg x e (x.afterClient rest t outs)
  | skip {rest} (hserver : ∀ y, x.serverEvents cfg e y = [])
      (hclient : ∀ y, x.clientEvents cfg e y = []) (hrest : ∀ m ∈ rest, m ∈ x.toClient) :
    Sides cfg x e { x with toClient := rest }

variable {cfg : TransferConfig} {x y : Transfer} {e : TransferEvent × (ℕ → ℤ)}

theorem rawStep_sides (h : x.rawStep cfg e = some y) : Sides cfg x e y := by
  obtain ⟨e, junk⟩ := e
  cases e with
  | server e bufs =>
    simp only [rawStep, step, Option.ite_none_left_eq_some] at h
    obtain ⟨⟨t, outs⟩, hstep, rfl⟩ := Option.map_eq_some_iff.mp h.2
    exact .server (fun _ => rfl) (fun _ => rfl) hstep
  | serverRead i now bufs =>
    obtain ⟨⟨a, rest⟩, hrecv, h⟩ := Option.bind_eq_some_iff.mp h
    obtain ⟨⟨t, outs⟩, hstep, rfl⟩ := Option.map_eq_some_iff.mp h
    exact .server (fun _ => by simp only [serverEvents, hrecv]) (fun _ => rfl) hstep
  | client e =>
    simp only [rawStep, Option.ite_none_left_eq_some] at h
    obtain ⟨⟨t, outs⟩, hstep, rfl⟩ := Option.map_eq_some_iff.mp h.2
    refine .client (fun _ => rfl) (fun _ => rfl) (fun _ hm => hm) ?_ hstep
    rintro s loseData loseAck junk rfl
    exact absurd rfl h.1
  | producerRead i loseData loseAck =>
    obtain ⟨⟨m, rest⟩, hrecv, h⟩ := Option.bind_eq_some_iff.mp h
    obtain ⟨hm, hrest⟩ := Discipline.mem_of_receive hrecv
    cases m with
    | segment s =>
      obtain ⟨⟨t, outs⟩, hstep, rfl⟩ := Option.map_eq_some_iff.mp h
      refine .client (fun _ => rfl) (fun _ => by simp only [clientEvents, hrecv]) hrest ?_ hstep
      intro s' _ _ _ heq
      cases heq
      exact hm
    | record a =>
      simp only [Option.ite_none_right_eq_some] at h
      obtain rfl := Option.some.inj h.2
      exact .skip (fun _ => rfl) (fun _ => by simp only [clientEvents, hrecv]) hrest
  | closeRead i =>
    obtain ⟨⟨m, rest⟩, hrecv, h⟩ := Option.bind_eq_some_iff.mp h
    obtain ⟨⟨t, outs⟩, hstep, rfl⟩ := Option.map_eq_some_iff.mp h
    have hclose : x.clientEvents cfg (.closeRead i, junk) =
        fun _ => [.closeRead m.asClientAck] := by
      funext y
      simp only [clientEvents, hrecv]
    refine .client (fun _ => rfl) (fun y => congrFun hclose y)
      (Discipline.mem_of_receive hrecv).2 ?_ hstep
    intro s loseData loseAck junk heq
    cases heq

theorem simulation_sender (cfg : TransferConfig) :
    (rawMachine cfg).Simulation (Sender.machine cfg.server) (serverEvents cfg)
      fun x s => x.sender = s := by
  rintro x e y _ rfl h
  cases rawStep_sides h with
  | server hserver _ hstep =>
    rw [hserver]
    exact ⟨_, Machine.run_singleton (Sender.machine_step.mpr ⟨_, hstep⟩), rfl⟩
  | client hserver =>
    rw [hserver]
    exact ⟨_, rfl, rfl⟩
  | skip hserver =>
    rw [hserver]
    exact ⟨_, rfl, rfl⟩

theorem simulation_client (cfg : TransferConfig) :
    (rawMachine cfg).Simulation (Client.machine cfg.client) (clientEvents cfg)
      fun x c => x.client = c := by
  rintro x e y _ rfl h
  cases rawStep_sides h with
  | server _ hclient =>
    rw [hclient]
    exact ⟨_, rfl, rfl⟩
  | client _ hclient _ _ hstep =>
    rw [hclient]
    exact ⟨_, Machine.run_singleton (Client.machine_step.mpr ⟨_, hstep⟩), rfl⟩
  | skip _ hclient =>
    rw [hclient]
    exact ⟨_, rfl, rfl⟩

end Transfer

end TcpOverUdp
