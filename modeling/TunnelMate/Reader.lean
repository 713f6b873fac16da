import TunnelMate.Common

/-!
# The frame reader

`frame.c`: the reader that cuts a byte stream into frames, and what writes one. A reader is the
bytes it has buffered; `feed` with nothing new takes the next frame out of the buffer.
-/

namespace TunnelMate

def tmFrameHdrLen : ℕ := 10
def tmMaxFramePayload : ℕ := 256 * 1024
def tmProtoVersion : UInt8 := 1

/-- The `TM_PROTO_STRING_LEN` bytes of `TM_PROTO_STRING` that a HELLO carries: `TunnelMate/`. -/
def tmProtoString : Bytes := [84, 117, 110, 110, 101, 108, 77, 97, 116, 101, 47]

def MsgType.ofByte (v : UInt8) : MsgType :=
  match v.toNat with
  | 1 => .hello
  | 2 => .helloAck
  | 3 => .register
  | 4 => .registerOk
  | 5 => .registerError
  | 6 => .ping
  | 7 => .pong
  | 8 => .openStream
  | 9 => .openStreamAck
  | 10 => .openStreamError
  | 11 => .dataBind
  | 12 => .dataBindOk
  | 13 => .dataBindError
  | 14 => .closeStream
  | 15 => .goingAway
  | 16 => .error
  | 17 => .killStream
  | 18 => .registerAck
  | 19 => .auth
  | 20 => .authOk
  | 21 => .authError
  | _ => .unknown v

/-- The `type` of a `tm_frame`. -/
def MsgType.toByte : MsgType → UInt8
  | .hello => 1
  | .helloAck => 2
  | .register => 3
  | .registerOk => 4
  | .registerError => 5
  | .ping => 6
  | .pong => 7
  | .openStream => 8
  | .openStreamAck => 9
  | .openStreamError => 10
  | .dataBind => 11
  | .dataBindOk => 12
  | .dataBindError => 13
  | .closeStream => 14
  | .goingAway => 15
  | .error => 16
  | .killStream => 17
  | .registerAck => 18
  | .auth => 19
  | .authOk => 20
  | .authError => 21
  | .unknown v => v

def tmFrameMake (type : UInt8) (streamId : ℕ) (payload : Bytes) : Option Frame :=
  if payload.length > tmMaxFramePayload then none
  else some { type := .ofByte type, streamId := streamId, payload := payload }

def tmFrameEncode (f : Frame) : Option Bytes :=
  if f.payload.length > tmMaxFramePayload then none
  else
    some ([tmProtoVersion, f.type.toByte] ++ wrU32 f.payload.length ++ wrU32 f.streamId ++
      f.payload)

/-- What `tm_frame_reader_feed` returns: NULL, NULL with `errored` set, or a frame. -/
inductive Fed
  | none
  | errored
  | frame (f : Frame)
  deriving DecidableEq

/-- `tm_frame_reader_feed` once the new bytes are in the buffer; with it what stays buffered. -/
def tmFrameReaderNext (buf : Bytes) : Bytes × Fed :=
  if buf.length < tmFrameHdrLen then (buf, .none)
  else if buf.getD 0 0 ≠ tmProtoVersion then (buf, .errored)
  else
    let payLen := rdU32 (buf.drop 2)
    if payLen > tmMaxFramePayload then (buf, .errored)
    else if buf.length < tmFrameHdrLen + payLen then (buf, .none)
    else
      let f := tmFrameMake (buf.getD 1 0) (rdU32 (buf.drop 6))
        ((buf.drop tmFrameHdrLen).take payLen)
      (buf.drop (tmFrameHdrLen + payLen), f.elim .none .frame)

def tmFrameReaderFeed (buf data : Bytes) : Bytes × Fed :=
  if data ≠ [] ∧ buf.length + data.length > tmMaxFramePayload + tmFrameHdrLen then (buf, .errored)
  else tmFrameReaderNext (buf ++ data)

/-- The bytes that are returned, and the buffer. -/
def tmFrameReaderDrain (buf : Bytes) : Bytes × Bytes := (buf, [])

/-- The loop of `conn_read`, given what the last `feed` left and returned: the frames, and what is
left in the buffer. It is `none` if `errored` gets set. -/
def takeFrames : ℕ → Bytes × Fed → Option (List Frame × Bytes)
  | _, (buf, .none) => some ([], buf)
  | _, (_, .errored) => none
  | 0, (buf, .frame f) => some ([f], buf)
  | n + 1, (buf, .frame f) =>
    (takeFrames n (tmFrameReaderFeed buf [])).map fun r => (f :: r.1, r.2)

/-- One chunk after the other, and after each the frames that are complete. -/
def feedChunks (buf : Bytes) : List Bytes → Option (List Frame × Bytes)
  | [] => some ([], buf)
  | c :: cs =>
    (takeFrames (buf.length + c.length) (tmFrameReaderFeed buf c)).bind fun r =>
      (feedChunks r.2 cs).map fun q => (r.1 ++ q.1, q.2)

end TunnelMate
