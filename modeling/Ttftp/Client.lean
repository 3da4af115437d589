/-
  The client (`tftpclient`): `start` sends the request, and starts a session, or
  first waits for the answer to its options.

  The socket of the request is held by two handlers, that of the receive and that
  of the timer `timeout_no_oack`.  It is handed over to the session, if there is
  one, and otherwise closed when both have run.  An answer is an OACK, or the
  first message of a server that ignores options; with any other one the
  negotiation has failed.
-/
import Ttftp.Session

namespace Ttftp

open Bytes Asio

structure TftpClient where
  os : OperatingSystem
  mRootfolder : Bytes
  /-- the socket of the request, and the timer `timeout_no_oack` -/
  io : Io Unit Endpoint := {}
  mRecvBuffer : Bytes := []
  /-- where the last datagram came from -/
  mServerEndpoint : Endpoint := default
  requestType : TftpOpcode := .invalid
  /-- the full path of the file -/
  filepath : Bytes := []
  size_of_file : UInt64 := 0
  session : Option Session := none
  /-- the codes the completion callback was called with by the client itself -/
  callbacks : List TftpUserFacingErrorCode := []
  /-- the exception that has left `start` or a handler -/
  threw : Option Exn := none

namespace TftpClient

def bufsize : ℕ := 2048

def new (os : OperatingSystem) (rootfolder : Bytes) : TftpClient where
  os := os
  mRootfolder := rootfolder

/-- The socket that is handed over to a session. -/
def sock {H : Type} (c : TftpClient) : Io H Endpoint := { started := true, wire := c.io.wire }

/-- A session is started, with the socket of the request. -/
def startSession (x : Session) (c : TftpClient) : TftpClient :=
  { c with io := c.io.close, session := some x }

/-! ## The request -/

/-- The option values of a request: it asks for the size of the file, or tells it. -/
def requestOptions (size : UInt64) (IN_optionVals : TransactionOptionValues) : TransactionOptionValues :=
  if IN_optionVals.isDefault then IN_optionVals else { IN_optionVals with mTransferSize := some size }

def requestMessage (requestType : TftpOpcode) (filename : Bytes) (IN_optionVals : TransactionOptionValues)
    (transfermode : TftpMode) : RequestMessage where
  mOpCode := requestType
  mFilename := filename
  mMode := transfermode
  mOptionValues := if IN_optionVals.isDefault then ∅ else IN_optionVals.getOptionsAsMap

/-- The request is sent from a new socket, which has no way to an address of IPv6; with
    options its answer is waited for. -/
def sendRequest (server : Endpoint) (msg : RequestMessage) (waits : Bool) (c : TftpClient) : TftpClient :=
  if !c.os.sockets then { c with threw := some .systemError }
  else match msg.encode with
    | .error e => { c with threw := some e }
    | .ok str =>
      if !server.address.is_v4 then { c with threw := some .systemError }
      else
        let io := c.io.asyncSendDetached server str
        if waits then
          { c with
            io := ((io.expiresFromNow (retransmissionTime.toNat * 4)).asyncWait).asyncReceiveFrom () }
        else { c with io := io }

def start_RRQ (server : Endpoint) (filename : Bytes) (IN_optionVals : TransactionOptionValues)
    (transfermode : TftpMode) (c : TftpClient) : TftpClient :=
  let filepath_to_write := c.mRootfolder ++ filename
  let IN_optionVals := requestOptions 0 IN_optionVals
  let c := { c with requestType := .rrq, filepath := filepath_to_write }
  let c := c.sendRequest server (requestMessage .rrq filename IN_optionVals transfermode)
    (!IN_optionVals.isDefault)
  if c.threw.isNone && IN_optionVals.isDefault then
    c.startSession (.receiver (TftpReceiver.new c.sock (c.os.output filepath_to_write) defaultBlocksize
      retransmissionTime).start)
  else c

def start_WRQ (server : Endpoint) (filename : Bytes) (IN_optionVals : TransactionOptionValues)
    (transfermode : TftpMode) (c : TftpClient) : TftpClient :=
  let filepath_to_read := c.mRootfolder ++ filename
  let size_of_file := c.os.fileSize filepath_to_read
  let IN_optionVals := requestOptions size_of_file IN_optionVals
  let c := { c with requestType := .wrq, filepath := filepath_to_read, size_of_file := size_of_file }
  let c := c.sendRequest server (requestMessage .wrq filename IN_optionVals transfermode)
    (!IN_optionVals.isDefault)
  if c.threw.isNone && IN_optionVals.isDefault then
    c.startSession (.sender (Tftpsender.new c.sock (.ofFile (c.os.content filepath_to_read)) 0
      defaultBlocksize retransmissionTime).start)
  else c

def start (server : Endpoint) (requestType : TftpOpcode) (filename : Bytes)
    (IN_optionVals : TransactionOptionValues) (transfermode : TftpMode) (c : TftpClient) : TftpClient :=
  match c.os.absolute c.mRootfolder with
  | none => { c with threw := some .systemError }
  | some mRootfolder =>
    let c := { c with
      mRootfolder := mRootfolder
      mRecvBuffer := List.replicate bufsize 0
      io := { started := true } }
    if server.address.is_unspecified then { c with threw := some .runtimeError }
    else match requestType with
      | .rrq => c.start_RRQ server filename IN_optionVals transfermode
      | .wrq => c.start_WRQ server filename IN_optionVals transfermode
      | _ => { c with threw := some .runtimeError }

/-! ## The answer to the options -/

/-- `on_receiver_done` and `on_sender_done`, called by the client itself. -/
def onDone (err : TftpUserFacingErrorCode) (c : TftpClient) : TftpClient :=
  { c with callbacks := c.callbacks ++ [err] }

def invalidOptions : Bytes :=
  ErrorMessage.encode ⟨TftpErrorCode.optNegotiation.toUInt16, ascii "OACK contained invalid option values"⟩

/-- A receiver is started that acknowledges the OACK by ACK 0. -/
def receiveFile (received_options : TransactionOptionValues) (c : TftpClient) : TftpClient :=
  c.startSession (.receiver (TftpReceiver.newConnected c.sock (c.os.output c.filepath) c.mServerEndpoint
    (received_options.mBlocksize.getD defaultBlocksize)
    (received_options.mTimeout.getD retransmissionTime)).start)

/-- An acceptable OACK to a read request, unless the file does not fit on the disk. -/
def acceptOack_RRQ (received_options : TransactionOptionValues) (c : TftpClient) : TftpClient :=
  match received_options.mTransferSize with
  | none => c.receiveFile received_options
  | some size => match c.os.available c.mRootfolder with
    | none => { c with threw := some .systemError }
    | some available => if available < size then c else c.receiveFile received_options

/-- One to a write request is answered by a sender's DATA 1, unless it has the
    wrong size. -/
def acceptOack_WRQ (received_options : TransactionOptionValues) (c : TftpClient) : TftpClient :=
  if received_options.mTransferSize.any (· ≠ c.size_of_file) then c
  else c.startSession (.sender (Tftpsender.newConnected c.sock (.ofFile (c.os.content c.filepath))
    c.mServerEndpoint 1 (received_options.mBlocksize.getD defaultBlocksize)
    (received_options.mTimeout.getD retransmissionTime)).start)

def handleOack (oack : OptionACKMessage) (c : TftpClient) : TftpClient :=
  match TransactionOptionValues.setOptionsFromMap oack.mOptionValues {} with
  | .error e => { c with threw := some e }
  | .ok (true, received_options) =>
    if c.requestType = .rrq then c.acceptOack_RRQ received_options else c.acceptOack_WRQ received_options
  | .ok (false, _) =>
    { c with io := c.io.asyncSendDetached c.mServerEndpoint invalidOptions }.onDone .optNegotiation

/-- A server that ignores options sends DATA 1, or ACK 0, at once. -/
def handleOther (past : Bytes) (d : Bytes) (c : TftpClient) : TftpClient :=
  if c.requestType = .rrq then
    let data := (DataMessage.new defaultBlocksize).decode d
    if data.1 then
      let receiver := TftpReceiver.newConnectedData1 c.sock (c.os.output c.filepath) c.mServerEndpoint
        data.2 defaultBlocksize retransmissionTime
      if receiver.threw then { c with threw := some .badWeakPtr }
      else c.startSession (.receiver receiver.start)
    else c.onDone .optNegotiation
  else
    let ack := AckMessage.decode past {} d
    if ack.1 then
      c.startSession (.sender (Tftpsender.newConnected c.sock (.ofFile (c.os.content c.filepath))
        c.mServerEndpoint 1 defaultBlocksize retransmissionTime).start)
    else c.onDone .optNegotiation

/-- The handler of the receive. -/
def handleAnswer (past : Bytes) (err : ErrorCode) (receivedbytes : ℕ) (c : TftpClient) : TftpClient :=
  let c := { c with io := c.io.timerCancel }
  let d := c.mRecvBuffer.take receivedbytes
  let oack := OptionACKMessage.decode past {} d
  if err = .success then
    if oack.1 then c.handleOack oack.2 else c.handleOther past d
  else c.onDone .optNegotiation

/-- The handler of the timer `timeout_no_oack`.  On the socket that has been
    handed over it throws. -/
def onOackTimeout (err : ErrorCode) (c : TftpClient) : TftpClient :=
  if err = .operationAborted then c
  else match c.io.cancel with
    | none => { c with threw := some .systemError }
    | some io => { c with io := io }

/-- The socket is closed when no handler holds it any more. -/
def release (c : TftpClient) : TftpClient :=
  if c.io.receives.isEmpty && c.io.received.isEmpty && decide (c.io.waits = 0) && c.io.waited.isEmpty then
    { c with io := c.io.close }
  else c

/-! ## The system -/

/-- An exception has left `start` or a handler. -/
def dead (c : TftpClient) : Bool := c.threw.isSome || c.session.any (·.threw)

/-- A received datagram overwrites the front of the buffer. -/
def store (src : Endpoint) (d : Bytes) (c : TftpClient) : TftpClient :=
  { c with mServerEndpoint := src, mRecvBuffer := d ++ c.mRecvBuffer.drop d.length }

/-- The socket of the request; `past` is what follows the received message in memory. -/
def proactor (past : Bytes) : Proactor TftpClient Unit Endpoint where
  io := io
  setIo io c := { c with io := io }
  threw := dead
  capacity c := c.mRecvBuffer.length
  store := store
  start := id
  onReceive _ err n c := (c.handleAnswer past err n).release
  onSend _ _ := id
  onTimer err c := (c.onOackTimeout err).release

end TftpClient

/-- The events of a client: those of the socket of its request, and those of its
    session. -/
inductive ClientEvent where
  | request (past : Bytes) (e : Event Endpoint)
  | session (e : Event Endpoint)

namespace TftpClient

def step (c : TftpClient) : ClientEvent → Option TftpClient
  | .request past e => (proactor past).step c e
  | .session e =>
    if c.dead then none
    else c.session.bind fun x => (x.step e).map fun x' => { c with session := some x' }

/-- The datagrams that have been sent from the client's socket. -/
def wire (c : TftpClient) : List (Endpoint × Bytes) := c.session.elim c.io.wire (·.wire)

/-- Whether the client's socket is open. -/
def isOpen (c : TftpClient) : Bool := c.session.elim c.io.isOpen (·.isOpen)

def is_transfer_running (c : TftpClient) : Bool := c.session.any (·.callbacks.isEmpty)

/-- All codes that were reported. -/
def reports (c : TftpClient) : List TftpUserFacingErrorCode :=
  c.callbacks ++ c.session.elim [] (·.callbacks)

/-- No handler is ready to run. -/
def Quiet (c : TftpClient) : Prop := c.io.Quiet ∧ ∀ x ∈ c.session, x.Quiet

end TftpClient

end Ttftp
