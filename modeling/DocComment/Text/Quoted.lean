import DocComment.Text.Hidden
import DocComment.Text.Search

/-! Quoted text for log records. Quotes and backslashes stand behind a backslash, and characters that
would not show are written by their code point. -/
namespace DocComment.Text

def hexDigits (n : Nat) : Text := Nat.toDigits 16 n

def quoteChar (c : Char) : Text :=
  if c = '"' || c = '\\' then ['\\', c]
  else if c = '\n' then ['\\', 'n']
  else if c = '\r' then ['\\', 'r']
  else if c = '\t' then ['\\', 't']
  else if c.toNat = 0 then ['\\', '0']
  else if isHidden c then "\\u\x7b".toList ++ hexDigits c.toNat ++ "\x7d".toList
  else [c]

def quoted (text : Text) : Text := '"' :: text.flatMap quoteChar ++ ['"']

example : quoted "a\"\\\x01'".toList = "\"a\\\"\\\\\\u\x7b1\x7d'\"".toList := by decide +kernel

end DocComment.Text
