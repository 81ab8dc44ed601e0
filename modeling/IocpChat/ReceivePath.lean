import IocpChat.LanServer

namespace IocpChat.ReceivePath

open IocpChat.Protocol
open IocpChat.PacketBuffer
open IocpChat.RingBuffer
open IocpChat.LanServer

/-- What one turn of the receive loop finds in the ring buffer.  `underflow`
stands for a `Peek` or `Read` that falls short, after which the source would go
on with uninitialised bytes. -/
inductive RecvStep where
  | wait
  | tooLong
  | underflow
  | badMac (rb : CRingBuffer)
  | frame (rb : CRingBuffer) (plain : List UInt8)

/-- One turn of the loop of `OnRecvComplete`, up to the verdict of `Decode`. -/
def nextFrame (C : Crypto) (rb : CRingBuffer) : RecvStep :=
  if rb.useSize < pktHeaderSize then .wait
  else
    match rb.peek pktHeaderSize with
    | none => .underflow
    | some header =>
        let len := (leWord (header.getD 0 0) (header.getD 1 0)).toNat
        if packetBufferSize - pktHeaderSize < len then .tooLong
        else if rb.useSize < pktHeaderSize + len then .wait
        else
          match rb.read (pktHeaderSize + len) with
          | (none, _) => .underflow
          | (some buf, rb') =>
              match decode C buf with
              | none => .badMac rb'
              | some plain => .frame rb' plain

theorem nextFrame_frame_lt {C : Crypto} {rb rb' : CRingBuffer} {plain : List UInt8}
    (h : nextFrame C rb = .frame rb' plain) : rb'.useSize < rb.useSize := by
  simp only [nextFrame] at h
  split at h
  · simp at h
  · split at h
    · simp at h
    · rename_i header hheader
      set len := (leWord (header.getD 0 0) (header.getD 1 0)).toNat
      split at h
      · simp at h
      · split at h
        · simp at h
        · rename_i hfit
          have hpos : 0 < pktHeaderSize + len := Nat.add_pos_left (by decide) len
          have hle : pktHeaderSize + len ≤ rb.useSize := by omega
          rw [rb.read_eq hle hpos] at h
          simp only at h
          split at h
          · simp at h
          · have hrb := (RecvStep.frame.inj h).1
            rw [← hrb, rb.useSize_moveReadPos hle]
            omega

def setRecvBuffer (sv : Server) (idx : Nat) (rb : CRingBuffer) : Server :=
  sv.setSession idx { sv.sessions idx with recvBuffer := rb }

/-- The part of the receive loop that handles a verified frame. -/
def deliver (sv : Server) (idx : Nat) (plain : List UInt8) : Server :=
  let (p, sv) := sv.alloc
  let sv := sv.setPacket p ((sv.packets p).attachRaw plain)
  (sv.onRecv idx p).release p

/-- The part that handles a frame with a wrong MAC, up to closing the session. -/
def discardFrame (sv : Server) : Server :=
  let (p, sv) := sv.alloc
  { sv with checksumMismatchCount := sv.checksumMismatchCount + 1 }.release p

theorem deliver_recvBuffer (sv : Server) (idx : Nat) (plain : List UInt8) :
    ((deliver sv idx plain).sessions idx).recvBuffer = (sv.sessions idx).recvBuffer := by
  simp [deliver, Server.onRecv, Server.setSession]

/-- The loop of `OnRecvComplete`, with the answer whether it was left by `break`
or, after closing the session, by `return`. -/
def recvLoop (C : Crypto) (idx : Nat) (sv : Server) : Server × Bool :=
  match _h : nextFrame C (sv.sessions idx).recvBuffer with
  | .wait => (sv, true)
  | .tooLong => (sv.closeSession idx, false)
  | .underflow => (sv, false)
  | .badMac rb => ((discardFrame (setRecvBuffer sv idx rb)).closeSession idx, false)
  | .frame rb plain => recvLoop C idx (deliver (setRecvBuffer sv idx rb) idx plain)
termination_by (sv.sessions idx).recvBuffer.useSize
decreasing_by
  rw [deliver_recvBuffer]
  simpa [setRecvBuffer, Server.setSession] using nextFrame_frame_lt _h

/-- What follows the loop if it was left by `break`. -/
def resumeRecv (idx : Nat) (accepted : Bool) (out : Server × Bool) : Server :=
  if !out.2 then out.1
  else if (out.1.sessions idx).recvBuffer.directEnqueueSize = 0 then out.1.closeSession idx
  else out.1.postRecv idx accepted

/-- `OnRecvComplete`. -/
def onRecvComplete (C : Crypto) (sv : Server) (idx bytes : Nat) (accepted : Bool) : Server :=
  let sv := setRecvBuffer sv idx ((sv.sessions idx).recvBuffer.moveWritePos bytes)
  resumeRecv idx accepted (recvLoop C idx sv)

/-- The completion of a receive is taken from the port; Windows has filled the
buffer behind `rear`. -/
def takeRecv (sv : Server) (idx : Nat) (bytes : List UInt8) : Server :=
  let s := sv.sessions idx
  sv.setSession idx
    { s with
      recvBuffer := s.recvBuffer.receive bytes
      received := s.received ++ bytes
      recvsOut := s.recvsOut - 1 }

/-- The completion of a send is taken from the port. -/
def takeSend (sv : Server) (idx : Nat) : Server :=
  let s := sv.sessions idx
  sv.setSession idx { s with sendsOut := s.sendsOut - 1 }

/-- `WorkerThread` on a receive that completed with data. -/
def recvDone (C : Crypto) (sv : Server) (idx : Nat) (bytes : List UInt8) (accepted : Bool) :
    Server :=
  (onRecvComplete C (takeRecv sv idx bytes) idx bytes.length accepted).ioRelease idx

/-- `WorkerThread` on a receive that failed or completed with no bytes. -/
def recvFailed (sv : Server) (idx : Nat) : Server :=
  ((takeRecv sv idx []).closeSession idx).ioRelease idx

/-- `WorkerThread` on a send that completed. -/
def sendDone (sv : Server) (idx : Nat) (accepted : Bool) : Server :=
  ((takeSend sv idx).onSendComplete idx accepted).ioRelease idx

/-- `WorkerThread` on a send that failed, was cancelled or completed with no
bytes: `OnSendComplete` is not called. -/
def sendFailed (sv : Server) (idx : Nat) : Server :=
  ((takeSend sv idx).closeSession idx).ioRelease idx

end IocpChat.ReceivePath
