import Freestanding.Text.Numeral

/-!
# Why an image cannot be read

Each failure to read an executable image, with what its report names.
-/
namespace Freestanding.Image

open Freestanding.Text (hex)

/-- The tables of headers whose size is tested before they are read. -/
inductive HeaderTable where
  | program
  | section
  deriving DecidableEq, Repr

inductive Fault where
  /-- Something begins beyond the end. -/
  | badOffset (offset : Nat)
  /-- Something is larger than the bytes that are left. -/
  | tooBig (wanted left : Nat)
  /-- A string is no text; so many bytes of its table are left from its start. -/
  | notText (left : Nat)
  | tooSmall
  /-- The first eight bytes, as a number, do not begin with the mark of the format. -/
  | badMagic (value : Nat)
  | badClass (code : Nat)
  | badOrder (code : Nat)
  /-- The file is shorter than so many headers. -/
  | tooManyHeaders (count : Nat) (table : HeaderTable)
  /-- The contents of a section end beyond the file. -/
  | sectionContents (name start size : Nat) (overflowed : Bool)
  /-- The memory of a section ends beyond 64 bits. -/
  | sectionMemory (name address size : Nat)
  | stringsStart (start file : Nat)
  | stringsEnd (size start file : Nat) (overflowed : Bool)
  | symbolsStart (start file : Nat)
  /-- The size of a symbol table is beyond 64 bits. -/
  | symbolsCount (start count : Nat)
  | symbolsEnd (wanted left : Nat)
  | dynamicContents (start size : Nat)
  /-- A hash table that has no buckets, no first symbol or no filter. -/
  | emptyHash (buckets first filter : Nat)
  deriving DecidableEq, Repr

def HeaderTable.items : HeaderTable → String
  | .program => "program headers"
  | .section => "section headers"

/-- What is wrong with an image whose parts contradict each other, if that is the failure. -/
def Fault.malformation? : Fault → Option String
  | .tooSmall => some "Too small"
  | .badClass code => some ("invalid ELF class " ++ String.ofList (Nat.toDigits 16 code))
  | .badOrder code =>
    some ("invalid ELF endianness DATA type " ++ String.ofList (Nat.toDigits 16 code))
  | .sectionContents name start size overflowed =>
    some ("Section " ++ toString name ++ " size (" ++ toString start ++ ") + offset ("
      ++ toString size ++ ") is out of bounds. Overflowed: " ++ toString overflowed)
  | .sectionMemory name address size =>
    some ("Section " ++ toString name ++ " size (" ++ toString address ++ ") + addr ("
      ++ toString size ++ ") is out of bounds. Overflowed: true")
  | .stringsStart start file =>
    some ("String table offset (" ++ toString start ++ ") is beyond file boundary ("
      ++ toString file ++ ")")
  | .stringsEnd size start file overflowed =>
    some ("Strtable size (" ++ toString size ++ ") + offset (" ++ toString start
      ++ ") is out of bounds for " ++ toString file ++ " #bytes. Overflowed: "
      ++ toString overflowed)
  | .symbolsStart start file =>
    some ("Symbol table offset (" ++ toString start ++ ") is beyond file boundary ("
      ++ toString file ++ ")")
  | .symbolsCount start count =>
    some ("Too many ELF symbols (offset " ++ hex start ++ ", count " ++ toString count ++ ")")
  | .symbolsEnd wanted left =>
    some ("Symbol table extends beyond file boundary (requested: " ++ toString wanted
      ++ ", available: " ++ toString left ++ ")")
  | .dynamicContents start size =>
    some ("Invalid PT_DYNAMIC size (offset " ++ hex start ++ ", filesz " ++ hex size ++ ")")
  | .emptyHash buckets first filter =>
    some ("Invalid DT_GNU_HASH: buckets_num=" ++ toString buckets ++ " min_chain="
      ++ toString first ++ " bloom_size=" ++ toString filter)
  | _ => none

def Fault.message (fault : Fault) : String :=
  match fault.malformation?, fault with
  | some text, _ => "Malformed entity: " ++ text
  | _, .badOffset offset => "bad offset " ++ toString offset
  | _, .tooBig wanted left =>
    "type is too big (" ++ toString wanted ++ ") for " ++ toString left
  | _, .notText left => "bad input invalid utf8 (" ++ toString left ++ ")"
  | _, .badMagic value => "Invalid magic number: " ++ hex value
  | _, .tooManyHeaders count table =>
    "Buffer is too short for " ++ toString count ++ " " ++ table.items
  | none, _ => ""

end Freestanding.Image
