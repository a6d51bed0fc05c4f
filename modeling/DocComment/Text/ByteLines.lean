import DocComment.Text.Lines

/-! Lines as they are read from bytes: up to a line feed at a time, and each decoded by itself. -/
namespace DocComment.Text

def utf8 (text : Text) : List UInt8 := text.flatMap String.utf8EncodeChar

/-- The bytes up to and including each line feed, and the rest behind the last one. -/
def byteLines : List UInt8 → List (List UInt8)
  | [] => []
  | b :: bs =>
    if b = 10 then [b] :: byteLines bs
    else
      match byteLines bs with
      | [] => [[b]]
      | line :: rest => (b :: line) :: rest

/-- A line without the line feed at its end, or the carriage return and the line feed. -/
def chomp (line : Text) : Text :=
  if line.getLast? = some '\n' then
    if line.dropLast.getLast? = some '\r' then line.dropLast.dropLast else line.dropLast
  else line

/-- A line is text or an error that says why not. -/
def decodeLine (bytes : List UInt8) : Except Text Text :=
  match String.fromUTF8? bytes.toByteArray with
  | some line => .ok (chomp line.toList)
  | none => .error "stream did not contain valid UTF-8".toList

def readLines (bytes : List UInt8) : Except Text (List Text) := (byteLines bytes).mapM decodeLine

end DocComment.Text
