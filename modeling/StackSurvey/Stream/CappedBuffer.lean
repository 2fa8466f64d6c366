import StackSurvey.Text.Utf8

/-! # A buffer that keeps only the front of a stream

    What an engine writes to its error channel is kept up to a limit.  Once bytes had to be
    dropped, the text says so at its end. -/

namespace StackSurvey

/-- The bytes kept, and whether others were dropped. -/
structure CappedBuffer where
  limit : Nat
  bytes : Bytes := []
  truncated : Bool := false

namespace CappedBuffer

def ofLimit (limit : Nat) : CappedBuffer := { limit }

/-- Appends as many bytes as there is room for. -/
def push (b : CappedBuffer) (bytes : Bytes) : CappedBuffer :=
  let room := b.limit - b.bytes.length
  { b with
    bytes := b.bytes ++ bytes.take room
    truncated := b.truncated || room < bytes.length }

/-- What is put after a text from which bytes were dropped. -/
def truncationMark : String := "\n[stderr truncated]"

/-- The text kept, leniently decoded. -/
def text (b : CappedBuffer) : String :=
  Utf8.decodeLossy b.bytes ++ (if b.truncated then truncationMark else "")

end CappedBuffer
end StackSurvey
