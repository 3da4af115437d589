/-
  The transfers that client and server start: a sender or a receiver with a socket
  of its own.
-/
import Ttftp.Sender
import Ttftp.Receiver

namespace Ttftp

open Bytes Asio

inductive Session where
  | sender (s : Tftpsender)
  | receiver (r : TftpReceiver)

namespace Session

/-- The datagrams that have been sent from the socket. -/
def wire : Session → List (Endpoint × Bytes)
  | sender s => s.io.wire
  | receiver r => r.io.wire

def isOpen : Session → Bool
  | sender s => s.io.isOpen
  | receiver r => r.io.isOpen

/-- No handler is ready to run. -/
def Quiet : Session → Prop
  | sender s => s.io.Quiet
  | receiver r => r.io.Quiet

def blocksize : Session → ℕ
  | sender s => s.blocksize
  | receiver r => r.blocksize

def timeoutSeconds : Session → UInt8
  | sender s => s.timeoutSeconds
  | receiver r => r.timeoutSeconds

/-- The codes the completion callback was called with. -/
def callbacks : Session → List TftpUserFacingErrorCode
  | sender s => s.callbacks
  | receiver r => r.callbacks

def operationEnded : Session → Bool
  | sender s => s.operationEnded
  | receiver r => r.operationEnded

def isSender : Session → Bool
  | sender _ => true
  | receiver _ => false

def threw : Session → Bool
  | sender s => s.threw
  | receiver r => r.threw

/-- What a sender reads has changed. -/
def rewrite (content : Bytes) : Session → Session
  | sender s => sender { s with input := { s.input with content := content } }
  | receiver r => receiver r

def step : Session → Event Endpoint → Option Session
  | sender s, e => (Tftpsender.proactor.step s e).map .sender
  | receiver r, e => (TftpReceiver.proactor.step r e).map .receiver

end Session

end Ttftp
