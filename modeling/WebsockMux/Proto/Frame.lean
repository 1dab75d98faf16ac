import WebsockMux.Proto.VarInt

/-!
# Stream identifiers and frames

`websock-mux-proto/src/stream.rs`. A stream identifier packs a counter, the direction bit and the
initiator bit into a `u64`. A frame is one of the seven messages of version 1 of the mux protocol;
`Frame.encode` and `Frame.decode` are its wire format. Decoding casts a length to `usize`, so it
takes the width of `usize` in bits as a parameter: 64 on the native server, 32 on the wasm client.
-/

set_option autoImplicit false

namespace WebsockMux.Proto

open WebsockMux.Lib

/-- Directionality of a multiplexed stream. -/
inductive StreamDir where
  | bi
  | uni
  deriving DecidableEq, Repr

/-- Encoded stream identifier: counter, direction bit and initiator bit in one `u64`. -/
structure StreamId where
  val : Nat
  deriving DecidableEq, Repr

namespace StreamId

/-- Construct an identifier from its fields. `checked_mul` fails when the product leaves `u64`. -/
def new (counter : Nat) (isServer : Bool) (dir : StreamDir) :
    Except VarIntBoundsExceeded StreamId :=
  let initiator := if isServer then 1 else 0
  let dirBit := match dir with
    | .bi => 0
    | .uni => 1
  if counter * 4 < 2 ^ 64 then
    let value := (counter * 4) ||| (dirBit <<< 1) ||| initiator
    match VarInt.fromU64 value with
    | .ok _ => .ok ⟨value⟩
    | .error e => .error e
  else .error .mk

/-- The direction encoded in the identifier. -/
def dir (id : StreamId) : StreamDir :=
  if (id.val >>> 1) &&& 1 = 1 then .uni else .bi

/-- Whether the server initiated the stream. -/
def initiatorIsServer (id : StreamId) : Bool :=
  id.val &&& 1 = 1

/-- The stream sequence number. -/
def counter (id : StreamId) : Nat :=
  id.val >>> 2

end StreamId

/-- A frame of the version 1 mux wire protocol. -/
inductive Frame where
  | openUni (id : StreamId)
  | openBi (id : StreamId)
  | stream (id : StreamId) (data : List UInt8) (fin : Bool)
  | resetStream (id : StreamId) (code : Nat)
  | stopSending (id : StreamId) (code : Nat)
  | maxStreamData (id : StreamId) (max : Nat)
  | connectionClose (code : Nat) (reason : String)
  deriving DecidableEq

/-- Errors produced while decoding a frame. -/
inductive FrameDecodeError where
  | unexpectedEnd
  | unknownTag (tag : Nat)
  | invalidUtf8
  | invalidFin (value : Nat)
  deriving DecidableEq

/-- The bytes of a string, `str::as_bytes`. -/
def asBytes (s : String) : List UInt8 := s.toByteArray.data.toList

/-- `std::str::from_utf8`. -/
def fromUtf8 (bs : List UInt8) : Option String := String.fromUTF8? ⟨bs.toArray⟩

namespace Frame

/-- The exact encoded length in bytes; `none` where `VarInt::size` is unreachable. -/
def encodedLen : Frame → Option Nat
  | openUni id => do return 1 + (← VarInt.size ⟨id.val⟩)
  | openBi id => do return 1 + (← VarInt.size ⟨id.val⟩)
  | stream id data fin => do
      return 1 + (← VarInt.size ⟨id.val⟩) + (← VarInt.size ⟨fin.toNat⟩) +
        (← VarInt.size ⟨data.length⟩) + data.length
  | resetStream id code => do return 1 + (← VarInt.size ⟨id.val⟩) + (← VarInt.size ⟨code⟩)
  | stopSending id code => do return 1 + (← VarInt.size ⟨id.val⟩) + (← VarInt.size ⟨code⟩)
  | maxStreamData id max => do return 1 + (← VarInt.size ⟨id.val⟩) + (← VarInt.size ⟨max⟩)
  | connectionClose code reason => do
      return 1 + (← VarInt.size ⟨code⟩) + (← VarInt.size ⟨(asBytes reason).length⟩) +
        (asBytes reason).length

/-- The varints of a frame in wire order: its tag, then its integer fields. -/
def varints : Frame → List Nat
  | openUni id => [0, id.val]
  | openBi id => [1, id.val]
  | stream id data fin => [2, id.val, fin.toNat, data.length]
  | resetStream id code => [3, id.val, code]
  | stopSending id code => [4, id.val, code]
  | maxStreamData id max => [6, id.val, max]
  | connectionClose code reason => [5, code, (asBytes reason).length]

/-- The bytes that follow the varints. -/
def payload : Frame → List UInt8
  | stream _ data _ => data
  | connectionClose _ reason => asBytes reason
  | _ => []

/-- Write varints to a buffer one after the other, then a slice. -/
def put : List Nat → List UInt8 → Option (List UInt8)
  | [], slice => some slice
  | x :: xs, slice => do return (← VarInt.encode ⟨x⟩) ++ (← put xs slice)

/-- The canonical wire representation; `none` where `VarInt::encode` is unreachable. -/
def encode (f : Frame) : Option (List UInt8) :=
  put f.varints f.payload

/-- The concatenated encodings of a list of frames, the payload of one binary message. -/
def encodeAll : List Frame → Option (List UInt8)
  | [] => some []
  | f :: fs => do return (← f.encode) ++ (← encodeAll fs)

/-- `VarInt::decode(buf)?.into_inner()`, with the conversion of its error. -/
def varint : Decoder FrameDecodeError Nat := do
  let v ← VarInt.decode.mapError fun _ => FrameDecodeError.unexpectedEnd
  return v.intoInner

/-- The FIN field is `0` or `1`. -/
def finBit : Nat → Decoder FrameDecodeError Bool
  | 0 => return false
  | 1 => return true
  | value => Decoder.fail (.invalidFin value)

/-- Copy `len` bytes out of the buffer, which must hold that many. -/
def copyToBytes (len : Nat) : Decoder FrameDecodeError (List UInt8) := do
  if (← Decoder.remaining) < len then Decoder.fail .unexpectedEnd else Decoder.take len

/-- The text of a close reason. -/
def utf8 (data : List UInt8) : Decoder FrameDecodeError String :=
  match fromUtf8 data with
  | some reason => return reason
  | none => Decoder.fail .invalidUtf8

/-- Decode one complete frame. `as usize` keeps the `usizeBits` low-order bits of a length. -/
def decode (usizeBits : Nat) : Decoder FrameDecodeError Frame := do
  let tag ← varint
  match tag with
  | 0 => return openUni ⟨← varint⟩
  | 1 => return openBi ⟨← varint⟩
  | 2 =>
      let id ← varint
      let fin ← finBit (← varint)
      let len ← varint
      let data ← copyToBytes (len % 2 ^ usizeBits)
      return stream ⟨id⟩ data fin
  | 3 => return resetStream ⟨← varint⟩ (← varint)
  | 4 => return stopSending ⟨← varint⟩ (← varint)
  | 5 =>
      let code ← varint
      let len ← varint
      let data ← copyToBytes (len % 2 ^ usizeBits)
      let reason ← utf8 data
      return connectionClose code reason
  | 6 => return maxStreamData ⟨← varint⟩ (← varint)
  | _ => Decoder.fail (.unknownTag tag)

/-- The decode loop of the inbound tasks, `while cursor.has_remaining()`. -/
def decodeAll (usizeBits fuel : Nat) (b : List UInt8) :
    Option (Except FrameDecodeError (List Frame)) :=
  drain (decode usizeBits) fuel b

/-- Every varint of the frame is below `2 ^ 62`. -/
def Encodable (f : Frame) : Prop := ∀ x ∈ f.varints, x < 2 ^ 62

instance (f : Frame) : Decidable f.Encodable := by
  unfold Encodable; infer_instance

end Frame

end WebsockMux.Proto
