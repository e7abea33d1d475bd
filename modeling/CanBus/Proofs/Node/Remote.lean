import CanBus.Proofs.Frame.Canonical
import CanBus.Proofs.Node.Queue
import CanBus.Proofs.Session.Intake

/-!
Remote requests, which frames can't represent. What a received frame says doesn't depend on its
remote flag (`decode_unflagged`), so that a request is read as data with its length and its bytes,
and it is handed out as such on every way to the reader of frames: by a single receive, by a poll
and through the inbox of a node. Main statement: `requests_delivered_as_data`.
-/

namespace CanBus

open Kernel

/-! ## The remote flag -/

namespace IdWord

/-- The word without its remote flag. -/
def unflagged (w : IdWord) : IdWord := ⟨w.val &&& ~~~remoteFlag⟩

variable (w : IdWord)

/-- Where a mask doesn't have the remote flag, that makes no difference. -/
theorem and_unflagged {m : UInt32} (hm : ~~~remoteFlag &&& m = m) :
    w.unflagged.val &&& m = w.val &&& m := by
  rw [unflagged, UInt32.and_assoc, hm]

theorem isRemote_unflagged : w.unflagged.isRemote = false := by
  have hnone : ~~~remoteFlag &&& remoteFlag = 0 := by decide
  rw [isRemote, unflagged, UInt32.and_assoc, hnone, UInt32.and_zero]
  rfl

theorem isExtended_unflagged : w.unflagged.isExtended = w.isExtended := by
  rw [isExtended, and_unflagged w (by decide), isExtended]

theorem isError_unflagged : w.unflagged.isError = w.isError := by
  rw [isError, and_unflagged w (by decide), isError]

theorem identifier_unflagged : w.unflagged.identifier = w.identifier := by
  have hmod (extended : Bool) : w.unflagged.val.toNat % Identifier.bound extended =
      w.val.toNat % Identifier.bound extended := by
    have hm : ~~~remoteFlag &&& mask extended = mask extended := by cases extended <;> decide
    rw [← toNat_and_mask, and_unflagged w hm, toNat_and_mask]
  rw [identifier, identifier, isExtended_unflagged]
  cases w.isExtended with
  | true => exact congrArg Identifier.extended (Fin.ext (hmod true))
  | false => exact congrArg Identifier.standard (Fin.ext (hmod false))

end IdWord

namespace WireFrame

/-- The data frame with the same identifier, length and bytes. -/
def unflagged (w : WireFrame) : WireFrame := { w with word := w.word.unflagged }

variable (w : WireFrame)

theorem decode_unflagged : w.unflagged.decode = w.decode := by
  have hclasses : w.word.unflagged.val &&& ErrorClass.fullMask =
      w.word.val &&& ErrorClass.fullMask :=
    w.word.and_unflagged (by decide)
  have hreport : Report.ofWord w.word.unflagged.val w.data = Report.ofWord w.word.val w.data := by
    rw [Report.ofWord, hclasses, Report.ofWord]
  show (if w.word.unflagged.isError then .error (Report.ofWord w.word.unflagged.val w.data)
    else .data ⟨w.word.unflagged.identifier, w.len, w.data⟩) = w.decode
  rw [w.word.isError_unflagged, w.word.identifier_unflagged, hreport]
  rfl

theorem frame?_unflagged : w.unflagged.frame? = w.frame? := by
  rw [frame?, decode_unflagged, frame?]

end WireFrame

/-- A session takes in a frame as it does without the remote flag, to the last log record. -/
theorem Session.ingest_unflagged (w : WireFrame) : ingest w.unflagged = ingest w := by
  unfold ingest
  rw [w.decode_unflagged, show w.unflagged.len = w.len from rfl,
    show w.unflagged.word.isExtended = w.word.isExtended from w.word.isExtended_unflagged]

/-! ## Delivery -/

namespace Datagram

/-- The datagram with the remote flag of its frame cleared. -/
def unflagged (d : Datagram) : Datagram :=
  match Datagram.frame? d with
  | some w => w.unflagged.bytes
  | none => d

theorem frame?_bytes (w : WireFrame) : Datagram.frame? w.bytes = some w := by
  have hlen := w.length_bytes
  rw [frame?, if_pos (Nat.le_of_eq hlen.symm), List.take_of_length_le (Nat.le_of_eq hlen),
    WireFrame.ofBytes_bytes]

theorem dataFrame?_unflagged (d : Datagram) :
    Session.dataFrame? (unflagged d) = Session.dataFrame? d := by
  unfold unflagged
  cases hw : Datagram.frame? d with
  | none => rfl
  | some w =>
    rw [Session.dataFrame?_whole hw, Session.dataFrame?_whole (frame?_bytes _), w.frame?_unflagged]

theorem frames_unflagged (ds : List Datagram) : frames (ds.map unflagged) = frames ds := by
  rw [frames, frames, List.filterMap_map]
  exact List.filterMap_congr fun d _ => dataFrame?_unflagged d

/-- A remote request is among the frames, in its place. -/
theorem frames_request {before after : List Datagram} {d : Datagram} {w : WireFrame}
    (hw : Datagram.frame? d = some w) (herr : w.word.isError = false) :
    frames (before ++ d :: after) =
      frames before ++ ⟨w.word.identifier, w.len, w.data⟩ :: frames after := by
  have hframe : Session.dataFrame? d = some ⟨w.word.identifier, w.len, w.data⟩ := by
    rw [Session.dataFrame?_whole hw, WireFrame.frame?, WireFrame.decode_of_not_error herr]
  rw [frames_append, frames, frames, frames, List.filterMap_cons, hframe]

end Datagram

/-- What was handed out for some datagrams: the same as if no remote flag had been set in any
of them, so that each remote request is there, in its place, as the data frame with its
identifier, length and bytes. -/
structure Delivered (ds : List Datagram) (fs : List Frame) : Prop where
  unflagged : fs = Datagram.frames (ds.map Datagram.unflagged)
  request : ∀ before d after w, ds = before ++ d :: after → Datagram.frame? d = some w →
    w.word.isRemote = true → w.word.isError = false →
      ∃ f, w.unflagged.decode = .data f ∧
        fs = Datagram.frames before ++ f :: Datagram.frames after

theorem delivered_frames (ds : List Datagram) : Delivered ds (Datagram.frames ds) where
  unflagged := (Datagram.frames_unflagged ds).symm
  request := by
    rintro before d after w rfl hw - herr
    refine ⟨_, ?_, Datagram.frames_request hw herr⟩
    rw [w.decode_unflagged, WireFrame.decode_of_not_error herr]

/-- The remote flag is looked at nowhere on the way from the kernel to the reader, so that a remote
request is delivered as a data frame. -/
theorem requests_delivered_as_data (name : String) (settings : Settings) (controller : Controller)
    (k₀ : Kernel) (as₀ : List Action) (as : List NodeAction) :
    (∀ w : WireFrame, w.word.isError = false →
      ∃ f, w.decode = .data f ∧ f.isRemote = false ∧ f.id = w.word.identifier ∧
        f.len = w.len ∧ f.payload = w.data ∧ w.unflagged.word.isRemote = false ∧
        w.unflagged.decode = .data f) ∧
    (∀ w w' : WireFrame, w.unflagged = w'.unflagged →
      w.decode = w'.decode ∧ Session.ingest w = Session.ingest w') ∧
    (∀ (s : Session) (c : Socket) (k : Kernel), s.channel = some c →
      (∃ ds, let o := (Session.receive.run s).run k
        Consumed c.handle s k ds o.1.2 o.2 ∧ Delivered ds o.1.1.toList) ∧
      ∀ limit, ∃ ds, let o := ((Session.poll limit).run s).run k
        Consumed c.handle s k ds o.1.2 o.2 ∧ Delivered ds o.1.1.2) ∧
    let w := (World.start name settings controller k₀).run as₀
    let v := NodeWorld.start w.session w.kernel
    let h := v.history as
    ∀ c, NodeEvent.socket? h = some c →
      Delivered (NodeEvent.drainedFrom c h) (NodeEvent.reads h ++ (v.run as).inbox) := by
  refine ⟨fun w herr => ?_, fun w w' hw => ⟨?_, ?_⟩,
    fun s c k hc => ⟨?_, fun limit => ?_⟩, ?_⟩
  · have hdecode := WireFrame.decode_of_not_error herr
    exact ⟨_, hdecode, rfl, rfl, rfl, rfl, w.word.isRemote_unflagged,
      w.decode_unflagged.trans hdecode⟩
  · rw [← w.decode_unflagged, hw, w'.decode_unflagged]
  · rw [← Session.ingest_unflagged w, hw, Session.ingest_unflagged w']
  · obtain ⟨d?, s', k', hrun, hin, -, -⟩ := Session.receive_intake hc k
    refine ⟨d?.toList, ?_⟩
    rw [hrun]
    refine ⟨hin.toConsumed, ?_⟩
    rw [← Datagram.frames_toList]
    exact delivered_frames _
  · obtain ⟨ds, ran, s', k', hrun, hin⟩ := Session.poll_handed limit hc k
    refine ⟨ds, ?_⟩
    rw [hrun]
    exact ⟨hin.toConsumed, delivered_frames ds⟩
  · intro w v h c hc
    have hsound : World.Sound w.session w.kernel :=
      World.sound_run (World.sound_start name settings controller k₀) as₀
    have hledger : Ledger (v.run as) h := NodeWorld.ledger_run (.start hsound) (.start _ _) as
    rw [(hledger.balanced c hc).1]
    exact delivered_frames _

/-- A remote request, returned by a receive and read from the inbox of a node. -/
theorem requests_delivered_of_one :
    let w : WireFrame := ⟨⟨0x40000123⟩, 1, Payload.ofList [0x01]⟩
    let w' : WireFrame := ⟨⟨0x123⟩, 1, Payload.ofList [0x01]⟩
    let f : Frame := ⟨.standard 0x123, 1, Payload.ofList [0x01]⟩
    let k : Kernel := { interfaces := [("can0", 3)], waiting := [w.bytes] }
    let opened := (World.start "can0" Settings.standard .table k).run [.tryOpen]
    let as : List NodeAction := .call (.enable 250000) :: List.replicate 6 .proceed ++
      List.replicate 4 (.loop 0) ++ [.call .read]
    let v := NodeWorld.start (Session.create "can0" Settings.standard .table 0) k
    let h := v.history as
    (w.word.isRemote = true ∧ w.word.isError = false ∧
      opened.session.channel = some ⟨0, 3⟩ ∧ NodeEvent.socket? h = some 0) ∧
    w.decode = w'.decode ∧
    ((Session.receive.run opened.session).run opened.kernel).1.1 = some f ∧
      NodeEvent.reads h = [f] := by
  intro w w' f k opened as v h
  have hc : opened.session.channel = some ⟨0, 3⟩ := by decide
  have hs : NodeEvent.socket? h = some 0 := by decide +kernel
  have hframes : Datagram.frames ([w.bytes].map Datagram.unflagged) = [f] := by decide
  obtain ⟨-, hsame, hout, hinbox⟩ :=
    requests_delivered_as_data "can0" Settings.standard .table k [] as
  refine ⟨⟨by decide, by decide, hc, hs⟩, (hsame w w' (by decide)).1, ?_, ?_⟩
  · have hleft : ((Session.receive.run opened.session).run opened.kernel).2.inbox 0 = [] := by
      decide
    have hqueue : opened.kernel.inbox 0 = [w.bytes] := by decide
    obtain ⟨⟨ds, hcons, hd⟩, -⟩ := hout opened.session ⟨0, 3⟩ opened.kernel hc
    have hds : [w.bytes] = ds := by
      rw [← hqueue, hcons.queue, hleft, List.append_nil]
    have hlist := hd.unflagged
    rw [← hds, hframes] at hlist
    exact Option.toList_eq_singleton_iff.mp hlist
  · have hdrained : NodeEvent.drainedFrom 0 h = [w.bytes] := by decide +kernel
    have hempty : (v.run as).inbox = [] := by decide +kernel
    have hlist : NodeEvent.reads h ++ (v.run as).inbox =
        Datagram.frames ((NodeEvent.drainedFrom 0 h).map Datagram.unflagged) :=
      (hinbox 0 hs).unflagged
    rwa [hdrained, hframes, hempty, List.append_nil] at hlist

/-- The remote flag of what was received is not to be found in the frame. -/
theorem remote_flag_lost :
    ¬ ∀ (w : WireFrame) (f : Frame), w.word.isError = false → w.decode = .data f →
      f.isRemote = w.word.isRemote := by
  intro h
  have hflag := h ⟨⟨0x40000123⟩, 1, Payload.ofList [0x01]⟩ _ (by decide) rfl
  exact absurd hflag (by decide)

end CanBus
