import CanBus.Proofs.Node.World
import CanBus.Proofs.Session.Requests

/-!
What a node asks of its link. A reader, a stop, a send and a read ask for nothing; a change of the
bitrate and a drop ask only for what is safe.
-/

namespace CanBus

open Kernel

namespace Node

theorem steady_onSession {R : Kernel → Kernel → Prop} [Chained R] {α : Type} {m : SessionM α}
    (h : Steady R m) : Steady R (onSession m) := fun n => h n.session

theorem asks_push (f : Frame) : Steady (Asks []) (push f) := by
  have hinbox (name : String) (q : Inbox) : Keeps (Asks []) (Inbox.push name q f) := by
    unfold Inbox.push
    dsimp only
    split
    · exact Keeps.bind (keeps_log _ _) fun _ => Keeps.pure _
    · exact Keeps.pure _
  refine Steady.bind Steady.get fun n => ?_
  exact Steady.bind (Steady.lift (hinbox _ _)) fun _ => Steady.modify _

theorem asks_readerStep : Steady (Asks []) readerStep := by
  refine Steady.bind Steady.get fun n => ?_
  cases n.reader with
  | none => exact Steady.pure _
  | some r =>
    have hrest (p : Progress) (r : Reader) : Steady (Asks []) (do
        Kernel.setThread .owner
        let k ← (get : System Kernel)
        return p != .idle || (r.isWaiting && !(k.script .epollWait).isEmpty) : NodeM Bool) :=
      Steady.bind (Steady.lift (asks_setThread _)) fun _ =>
        Steady.bind (Steady.lift Keeps.get) fun _ => Steady.pure _
    refine Steady.bind (Steady.lift (asks_setThread _)) fun _ => ?_
    refine Steady.bind (steady_onSession r.asks_step) fun ⟨r', p⟩ => ?_
    refine Steady.bind (Steady.modify _) fun _ => ?_
    match p with
    | .idle => exact hrest _ _
    | .moved none => exact hrest _ _
    | .moved (some f) => exact Steady.bind (asks_push f) fun _ => hrest _ _

theorem asks_settleWithin (n : Nat) : Steady (Asks []) (settleWithin n) := by
  induction n with
  | zero => exact Steady.pure _
  | succ n ih =>
    refine Steady.bind asks_readerStep fun more => ?_
    split
    · exact ih
    · exact Steady.pure _

theorem asks_stop : Steady (Asks []) stop :=
  Steady.bind (steady_onSession Session.asks_close) fun _ =>
    Steady.bind (Steady.bind (Steady.lift Keeps.get) fun _ => asks_settleWithin _) fun _ =>
      Steady.modify _

theorem asks_send (f : Frame) : Steady (Asks []) (send f) := by
  refine Steady.bind Steady.get fun n => ?_
  split
  · exact Steady.pure _
  · split
    · exact Steady.pure _
    · exact steady_onSession (Session.asks_trySend _ _ _ _)

theorem asks_reset : Steady (Asks []) reset := steady_onSession (Session.asks_log _ _)

theorem asks_read : Steady (Asks []) read := by
  refine Steady.bind Steady.get fun n => ?_
  exact Steady.bind (Steady.set _) fun _ => Steady.pure _

theorem retune_asks (n : Node) (b : UInt32) {k : Kernel} (hd : k.links.Distinct) :
    AsksOnly Asking.IsSafe k (((retune b).run n).run k).2 := by
  have hset := Session.setBitrate_asks n.session b hd
  unfold retune
  rw [Stateful.run_bind, onSession_run]
  refine Chained.trans hset (Asks.only ?_ _)
  cases (((Session.setBitrate b).run n.session).run k).1.1 with
  | true => exact steady_onSession (Session.asks_log _ _) _ _
  | false => exact steady_onSession (Session.asks_log _ _) _ _

theorem drop_asks : Steady (AsksOnly Asking.IsSafe) drop :=
  Steady.bind (fun n => (asks_stop n).asksOnly _) fun _ => steady_onSession Session.drop_asks

end Node

end CanBus
