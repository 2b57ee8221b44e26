namespace Calculator.Text

-- The parts of a text between the occurrences of a mark. There is one part more than marks.
def split (mark : Char) : List Char → List (List Char)
  | [] => [[]]
  | c :: rest =>
    let parts := split mark rest
    if c = mark then [] :: parts else (c :: parts.headD []) :: parts.tail

-- The lines of a text. A newline at the end begins no further line.
def lines (text : String) : List String :=
  let parts := split '\n' text.toList
  (if parts.getLast? = some [] then parts.dropLast else parts).map String.ofList

end Calculator.Text
