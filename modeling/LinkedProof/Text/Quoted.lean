import LinkedProof.Text.Printable

/-! The form in which a message quotes a text: between single quotes, or between double quotes when
the text holds a single quote and no double one. -/
namespace LinkedProof.Quoted

def quoteOf (t : Text) : CodePoint :=
  if t.contains ('\'' : CodePoint) && !t.contains ('"' : CodePoint) then '"' else '\''

def escape (quote c : CodePoint) : Text :=
  if c = quote || c = ('\\' : CodePoint) then ['\\', c]
  else if c = ('\t' : CodePoint) then "\\t"
  else if c = ('\n' : CodePoint) then "\\n"
  else if c = ('\r' : CodePoint) then "\\r"
  else if c.isPrintable then [c]
  else if c.val < 0x100 then "\\x" ++ Text.ofHex 2 c.val
  else if c.val < 0x10000 then "\\u" ++ Text.ofHex 4 c.val
  else "\\U" ++ Text.ofHex 8 c.val

def text (t : Text) : Text :=
  let quote := quoteOf t
  quote :: t.flatMap (escape quote) ++ [quote]

end LinkedProof.Quoted
