import Cvere.Assembly.Program
import Cvere.Image

/-!
# Assembly sessions

An assembler remembers the program it laid out last. A session is a sequence of requests to one
assembler; each request may replace the program, and a failure leaves the program that failed.
-/

namespace Cvere

namespace Assembly

/-- What an assembler can be asked. -/
inductive Request where
  /-- Lay out a source text. -/
  | layOut (source : Text)
  /-- Encode the program. -/
  | encode
  /-- Lay out a source text and encode it. -/
  | assemble (source : Text)
  /-- Assemble to a hexadecimal listing. -/
  | assembleToListing (source : Text)
  /-- Assemble to bytes. -/
  | assembleToBytes (source : Text)
  /-- Look up a label. -/
  | label (name : Text)
  deriving DecidableEq, Repr

/-- What an assembler answers. -/
inductive Answer where
  | done
  | words (words : List Word)
  | listing (text : Text)
  | bytes (bytes : List UInt8)
  | address (address : Option Address)
  deriving DecidableEq, Repr

namespace Program

/-- The program after a request. -/
def after (p : Program) : Request → Program
  | .layOut source | .assemble source | .assembleToListing source | .assembleToBytes source =>
    ofSource source
  | .encode | .label _ => p

/-- The answer to a request. -/
def answer (p : Program) (r : Request) : Except Error Answer :=
  match r with
  | .layOut _ => .ok .done
  | .encode | .assemble _ => (p.after r).encode.map .words
  | .assembleToListing _ => (p.after r).encode.map fun ws => .listing (Image.toListing ws)
  | .assembleToBytes _ => (p.after r).encode.map fun ws => .bytes (Image.toBytes ws)
  | .label name => .ok (.address (p.symbols.get? name))

/-- What is reported while a request is answered. -/
def events (p : Program) (r : Request) : List Event :=
  match r with
  | .layOut source => layoutEvents source
  | .encode => p.encodingEvents
  | .assemble source | .assembleToListing source | .assembleToBytes source =>
    layoutEvents source ++ (ofSource source).encodingEvents
  | .label _ => []

/-- The program after a sequence of requests. -/
def run (p : Program) (rs : List Request) : Program :=
  rs.foldl after p

end Program

end Assembly

end Cvere
