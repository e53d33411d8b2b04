import TcpOverUdp.RawTransfer
import TcpOverUdp.Lib.Bytes
import TcpOverUdp.Lib.Simulation

namespace TcpOverUdp
open CWord

def ClientAck.bytes (host : ByteOrder) (a : ClientAck) : List UInt8 :=
  wordBytes host a.currentRequest ++ (wordBytes host a.advtWindow ++ wordBytes host a.lastackSent)

def ClientAck.ofBytes (host : ByteOrder) (bytes : List UInt8) : ClientAck where
  currentRequest := wordOf host bytes
  advtWindow := wordOf host (bytes.drop 4)
  lastackSent := wordOf host (bytes.drop 8)

def Segment.bytes (host : ByteOrder) (s : Segment) : List UInt8 :=
  wordBytes host s.segmentNum ++ List.ofFn s.segmentData

def Segment.ofBytes (host : ByteOrder) (bytes : List UInt8) : Segment where
  segmentNum := wordOf host bytes
  segmentData i := bytes.getD (4 + i) 0

def clientAckSize : ℕ := 12

variable {host : ByteOrder}

@[simp] lemma ClientAck.length_bytes (a : ClientAck) : (a.bytes host).length = clientAckSize := by
  simp [bytes, clientAckSize]

@[simp] lemma Segment.length_bytes (s : Segment) : (s.bytes host).length = segmentSize := by
  rw [bytes, List.length_append, length_wordBytes, List.length_ofFn]
  rfl

theorem ClientAck.ofBytes_bytes (a : ClientAck) : ofBytes host (a.bytes host) = a := by
  have h4 : (a.bytes host).drop 4 = wordBytes host a.advtWindow ++ wordBytes host a.lastackSent :=
    drop_wordBytes_append host a.currentRequest _ 0
  have h8 : (a.bytes host).drop 8 = wordBytes host a.lastackSent ++ [] := by
    rw [List.append_nil]
    exact (drop_wordBytes_append host a.currentRequest _ 4).trans
      (drop_wordBytes_append host a.advtWindow _ 0)
  rw [ofBytes, h4, h8, bytes]
  simp only [wordOf_wordBytes_append]

theorem Segment.ofBytes_bytes (s : Segment) : ofBytes host (s.bytes host) = s := by
  have hdata : (fun i : Fin segmentDataSize => (s.bytes host).getD (4 + i) 0) = s.segmentData := by
    funext i
    have hi : (i : ℕ) < (List.ofFn s.segmentData).length := by
      rw [List.length_ofFn]
      exact i.isLt
    rw [bytes, List.getD_append_right _ _ _ _ (by simp), length_wordBytes, Nat.add_sub_cancel_left,
      List.getD_eq_getElem _ _ hi]
    simp
  rw [ofBytes, hdata, bytes, wordOf_wordBytes_append]

lemma Payload.getD_ofFn (p : Payload) (i : Fin segmentDataSize) : (List.ofFn p).getD i 0 = p i := by
  have hi : (i : ℕ) < (List.ofFn p).length := by
    rw [List.length_ofFn]
    exact i.isLt
  rw [List.getD_eq_getElem _ _ hi, List.getElem_ofFn]

lemma Payload.wordOf_drop (p : Payload) (i : Fin 127) :
    wordOf .big ((List.ofFn p).drop (4 * i)) = p.wordAt i := by
  have hbyte : ∀ j : Fin 4, ((List.ofFn p).drop (4 * i)).getD j 0 =
      p ⟨4 * i + j, by simp only [segmentDataSize, segmentSize]; omega⟩ := by
    intro j
    rw [List.getD_eq_getElem?_getD, List.getElem?_drop, ← List.getD_eq_getElem?_getD]
    exact p.getD_ofFn ⟨4 * i + j, _⟩
  simp only [wordOf, load, hbyte]
  rfl

theorem Segment.ofBytes_asClientAck (s : Segment) :
    ClientAck.ofBytes .big (s.bytes .big) = s.asClientAck := by
  have h4 : (s.bytes .big).drop 4 = (List.ofFn s.segmentData).drop (4 * (0 : Fin 127)) :=
    drop_wordBytes_append .big s.segmentNum _ 0
  have h8 : (s.bytes .big).drop 8 = (List.ofFn s.segmentData).drop (4 * (1 : Fin 127)) :=
    drop_wordBytes_append .big s.segmentNum _ 4
  rw [ClientAck.ofBytes, h4, h8, Payload.wordOf_drop, Payload.wordOf_drop, bytes,
    wordOf_wordBytes_append]
  rfl

def Datagram.bytes : Datagram → List UInt8
  | .segment s => s.bytes .big
  | .record a => a.bytes .big

/-- The buffer the server reads into: that of its loop, or the local of `PassiveClose`. -/
def Sender.buffer (s : Sender) : ClientAck :=
  match s.state with
  | .awaitFin => ⟨0, 0, 0⟩
  | .awaitAck _ a => a
  | _ => s.ack

/-- What the server reads of a datagram: the first bytes, over what its buffer holds. -/
def Sender.readBytes (s : Sender) (bytes : List UInt8) : ReadResult :=
  if clientAckSize ≤ bytes.length then .complete (ClientAck.ofBytes .big bytes)
  else .short (ClientAck.ofBytes .big (bytes ++ (s.buffer.bytes .big).drop bytes.length))

/-- The two parties, and the bytes of the datagrams in flight. -/
structure ByteTransfer where
  sender : Sender
  client : Client
  toClient : List (List UInt8)
  toServer : List (List UInt8)

namespace ByteTransfer

variable (cfg : TransferConfig)

def start (now : TimeVal) : ByteTransfer where
  sender := Sender.start cfg.server now
  client := Client.start cfg.client
  toClient := []
  toServer := []

def serve (x : ByteTransfer) (e : SenderEvent) (bufs : ℕ → Payload) (rest : List (List UInt8)) :
    Option ByteTransfer :=
  (x.sender.step cfg.server e).map fun (t, outs) =>
    { x with
      sender := t
      toClient := x.toClient ++ outs.zipIdx.map fun p => (cfg.datagram (bufs p.2) p.1).bytes
      toServer := rest }

def act (x : ByteTransfer) (e : ClientEvent) (rest : List (List UInt8)) : Option ByteTransfer :=
  (x.client.step cfg.client e).map fun (t, outs) =>
    { x with
      client := t
      toClient := rest
      toServer := x.toServer ++ outs.map fun out => out.record.bytes .big }

def step (x : ByteTransfer) : TransferEvent × (ℕ → ℤ) → Option ByteTransfer
  | (.server e bufs, _) => if e.reads then none else x.serve cfg e bufs x.toServer
  | (.serverRead i now bufs, _) =>
    (cfg.channel.receive x.toServer i).bind fun (bytes, rest) =>
      x.serve cfg (.read (x.sender.readBytes bytes) now) bufs rest
  | (.client e, _) => if e.reads then none else x.act cfg e x.toClient
  | (.producerRead i loseData loseAck, junk) =>
    (cfg.channel.receive x.toClient i).bind fun (bytes, rest) =>
      -- `SEGMENTSIZE == Read (..)`: what is longer is cut off
      if segmentSize ≤ bytes.length then
        x.act cfg (.segment (Segment.ofBytes .big bytes) loseData loseAck junk) rest
      else if x.client.producer = .receiving then some { x with toClient := rest } else none
  | (.closeRead i, _) =>
    (cfg.channel.receive x.toClient i).bind fun (bytes, rest) =>
      -- `ActiveClose` is not followed into a record that is cut short
      if clientAckSize ≤ bytes.length then
        x.act cfg (.closeRead (ClientAck.ofBytes .big bytes)) rest
      else none

def machine : Machine ByteTransfer (TransferEvent × (ℕ → ℤ)) := ⟨step cfg⟩

end ByteTransfer

namespace Transfer

def encode (x : Transfer) : ByteTransfer where
  sender := x.sender
  client := x.client
  toClient := x.toClient.map Datagram.bytes
  toServer := x.toServer.map (ClientAck.bytes .big)

variable {cfg : TransferConfig} {x : Transfer}

lemma encode_serve (e : SenderEvent) (bufs : ℕ → Payload) (rest : List ClientAck) :
    x.encode.serve cfg e bufs (rest.map (ClientAck.bytes .big)) =
      (x.serve cfg e bufs rest).map encode := by
  simp only [ByteTransfer.serve, serve, Option.map_map]
  congr 1
  funext ⟨t, outs⟩
  simp only [Function.comp_apply, afterServer, encode, List.map_append, List.map_map]
  rfl

lemma encode_act (e : ClientEvent) (rest : List Datagram) :
    x.encode.act cfg e (rest.map Datagram.bytes) = (x.rawAct cfg e rest).map encode := by
  simp only [ByteTransfer.act, rawAct, Option.map_map]
  congr 1
  funext ⟨t, outs⟩
  simp only [Function.comp_apply, afterClient, encode, List.map_append, List.map_map]
  rfl

lemma readBytes_bytes (s : Sender) (a : ClientAck) :
    s.readBytes (a.bytes .big) = .complete a := by
  rw [Sender.readBytes, ClientAck.length_bytes, if_pos le_rfl, ClientAck.ofBytes_bytes]

lemma ofBytes_datagram (m : Datagram) : ClientAck.ofBytes .big m.bytes = m.asClientAck := by
  cases m with
  | segment s => exact s.ofBytes_asClientAck
  | record a => exact a.ofBytes_bytes

lemma clientAckSize_le (m : Datagram) : clientAckSize ≤ m.bytes.length := by
  cases m with
  | segment s =>
    rw [Datagram.bytes, Segment.length_bytes]
    decide
  | record a => exact (@ClientAck.length_bytes .big a).ge

theorem step_encode (x : Transfer) (e : TransferEvent × (ℕ → ℤ)) :
    (ByteTransfer.machine cfg).step x.encode e = ((rawMachine cfg).step x e).map encode := by
  change x.encode.step cfg e = (x.rawStep cfg e).map encode
  obtain ⟨e, junk⟩ := e
  cases e with
  | server e bufs =>
    simp only [ByteTransfer.step, rawStep, step]
    split_ifs
    · rfl
    · exact encode_serve e bufs x.toServer
  | serverRead i now bufs =>
    simp only [ByteTransfer.step, rawStep, step, encode, Discipline.receive_map]
    cases cfg.channel.receive x.toServer i with
    | none => rfl
    | some p =>
      -- a record in flight is read as a whole
      simp only [Option.map_some, Option.bind_some, readBytes_bytes]
      exact encode_serve _ bufs p.2
  | client e =>
    simp only [ByteTransfer.step, rawStep]
    split_ifs
    · rfl
    · exact encode_act e x.toClient
  | producerRead i loseData loseAck =>
    simp only [ByteTransfer.step, rawStep, encode, Discipline.receive_map]
    cases cfg.channel.receive x.toClient i with
    | none => rfl
    | some p =>
      obtain ⟨m, rest⟩ := p
      cases m with
      | segment s =>
        simp only [Option.map_some, Option.bind_some, Datagram.bytes, Segment.length_bytes,
          le_refl, if_true, Segment.ofBytes_bytes]
        exact encode_act _ rest
      -- a record is shorter than a segment, and the loop of the producer goes on
      | record a =>
        simp only [Option.map_some, Option.bind_some, Datagram.bytes, ClientAck.length_bytes]
        rw [if_neg (by decide)]
        exact (apply_ite (Option.map encode) (x.client.producer = .receiving)
          (some { x with toClient := rest }) none).symm
  | closeRead i =>
    simp only [ByteTransfer.step, rawStep, step, encode, Discipline.receive_map]
    cases cfg.channel.receive x.toClient i with
    | none => rfl
    | some p =>
      simp only [Option.map_some, Option.bind_some, ofBytes_datagram, clientAckSize_le, if_true]
      exact encode_act _ p.2

/-- Every run on bytes is the run on the records they stand for. -/
theorem run_encode (cfg : TransferConfig) (now : TimeVal) (es : List (TransferEvent × (ℕ → ℤ))) :
    (ByteTransfer.machine cfg).run (ByteTransfer.start cfg now) es =
      ((rawMachine cfg).run (start cfg now) es).map encode :=
  Machine.run_map step_encode (start cfg now) es

end Transfer

end TcpOverUdp
