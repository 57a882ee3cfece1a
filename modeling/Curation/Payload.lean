import Curation.Failure

/-! The body of an upload, read up to a limit. -/

namespace Curation

/-- The body of an upload: given as a whole, or delivered chunk by chunk by a sender who may go away after the
    last chunk. -/
inductive Payload where
  | whole (data : ByteArray)
  | stream (chunks : List ByteArray) (cut : Bool := false)

namespace Payload

/-- The failure of a body that is too large. -/
def tooLarge (message : String) : Failure := .field "payload" message "payload_too_large"

/-- Reads chunks after what has been read already, and stops at the first one that exceeds the limit.
    Counts the chunks pulled. -/
def readChunks (limit : Int) (message : String) (cut : Bool) :
    ByteArray → Nat → List ByteArray → Except Failure ByteArray × Nat
  | buffer, pulled, [] => (if cut then .error .disconnected else .ok buffer, pulled)
  | buffer, pulled, chunk :: chunks =>
    let buffer := buffer ++ chunk
    if limit < buffer.size then (.error (tooLarge message), pulled + 1)
    else readChunks limit message cut buffer (pulled + 1) chunks

/-- The bytes of a body of at most `limit` bytes, and how many chunks were pulled for them. -/
def read (limit : Int) (message : String) : Payload → Except Failure ByteArray × Nat
  | .whole data =>
    (if limit < data.size then .error (tooLarge message) else .ok data, 0)
  | .stream chunks cut => readChunks limit message cut .empty 0 chunks

end Payload

end Curation
