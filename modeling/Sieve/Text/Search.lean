namespace Sieve.Text

-- Whether `needle` occurs anywhere in a text.
def occursIn (needle : List Char) : List Char → Bool
  | [] => needle.isEmpty
  | c :: rest => needle.isPrefixOf (c :: rest) || occursIn needle rest

end Sieve.Text
