namespace CausalWeave.Text

/-- Reads pieces as long as there are any. A piece that takes nothing ends the repetition. -/
def repeated (piece? : List Char → Option (α × List Char)) (chars : List Char) :
    List α × List Char :=
  match piece? chars with
  | none => ([], chars)
  | some (piece, rest) =>
    if rest.length < chars.length then
      let (pieces, others) := repeated piece? rest
      (piece :: pieces, others)
    else ([], chars)
termination_by chars.length

end CausalWeave.Text
