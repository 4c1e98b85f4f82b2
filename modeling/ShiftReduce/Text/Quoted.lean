import ShiftReduce.Text.Concealed
import ShiftReduce.Text.Escape

/-! A text between double quotes, as error messages show names and paths. Letters of every script
and the apostrophe stand for themselves. -/

namespace ShiftReduce.Text

def quoteChar (c : Char) : List Char :=
  if c = '\x00' then ['\\', '0']
  else if c = '\t' then ['\\', 't']
  else if c = '\r' then ['\\', 'r']
  else if c = '\n' then ['\\', 'n']
  else if c = '"' ∨ c = '\\' then ['\\', c]
  else if isConcealed c then escapeCode c
  else [c]

def quote (text : String) : String :=
  String.ofList (['"'] ++ text.toList.flatMap quoteChar ++ ['"'])

end ShiftReduce.Text
