import StackSurvey.Text.Utf8

/-! # Frames of an attached stream

    A container's channels share one stream.  Every piece is framed: a byte for the channel,
    three bytes that say nothing, the length in four bytes with the most significant one first,
    and then the piece itself.  `decode` gives the frames that are complete and the bytes that
    are not. -/

namespace StackSurvey.Container

/-- A piece of an attached stream. -/
inductive Frame where
  | stdout (bytes : Bytes)
  | stderr (bytes : Bytes)
  /-- A piece of some other channel. -/
  | other (bytes : Bytes)
deriving DecidableEq

namespace Frame

/-- The byte for the channel. -/
def channel : Frame → UInt8
  | other _ => 0
  | stdout _ => 1
  | stderr _ => 2

def payload : Frame → Bytes
  | stdout bytes | stderr bytes | other bytes => bytes

/-- The frame of a channel. -/
def ofChannel (channel : UInt8) (bytes : Bytes) : Frame :=
  if channel = 1 then .stdout bytes
  else if channel = 2 then .stderr bytes
  else .other bytes

/-- The last `count` bytes of a number, the most significant one first. -/
def numberBytes : (count : Nat) → Nat → Bytes
  | 0, _ => []
  | count + 1, n => numberBytes count (n / 256) ++ [n.toUInt8]

/-- The number that bytes make up. -/
def number (bytes : Bytes) : Nat := bytes.foldl (fun n b => 256 * n + b.toNat) 0

def encode (f : Frame) : Bytes :=
  f.channel :: 0 :: 0 :: 0 :: numberBytes 4 f.payload.length ++ f.payload

/-- The frames at the front of a stream, and the bytes of the frame that is cut off. -/
def decode : Bytes → List Frame × Bytes
  | [] => ([], [])
  | channel :: rest =>
    let length := number ((rest.drop 3).take 4)
    let body := rest.drop 7
    if rest.length < 7 || body.length < length then ([], channel :: rest)
    else
      let (frames, cut) := decode (body.drop length)
      (ofChannel channel (body.take length) :: frames, cut)
termination_by bytes => bytes.length
decreasing_by simp only [List.length_drop, List.length_cons]; omega

end Frame
end StackSurvey.Container
