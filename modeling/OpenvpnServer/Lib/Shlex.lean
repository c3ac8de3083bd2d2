import OpenvpnServer.Lib.Text

-- Python's `shlex.split`: the words of a shell line.
namespace OpenvpnServer.Lib

-- Where the reader is. A backslash inside quotes returns to them.
inductive ShlexState where
  | blank
  | comment
  | word
  | quoted (quote : Char)
  | escaped (quote : Option Char)
  deriving DecidableEq, Repr

def shlexSpace (c : Char) : Bool := c = ' ' || c = '\t' || c = '\r' || c = '\n'

def shlexQuote (c : Char) : Bool := c = Char.ofNat 39 || c = '"'

-- The words of what is left, after the part of a word that was read; `none` is
-- the `ValueError` for a quote or a backslash without its end.
def shlexWords (comments : Bool) : ShlexState → Text → Text → Option (List Text)
  | .blank, _, [] => some []
  | .blank, _, c :: rest =>
      if shlexSpace c then shlexWords comments .blank [] rest
      else if comments && c = '#' then shlexWords comments .comment [] rest
      else if c = '\\' then shlexWords comments (.escaped none) [] rest
      else if shlexQuote c then shlexWords comments (.quoted c) [] rest
      else shlexWords comments .word [c] rest
  | .comment, _, [] => some []
  | .comment, _, c :: rest =>
      if c = '\n' then shlexWords comments .blank [] rest
      else shlexWords comments .comment [] rest
  | .word, token, [] => some [token]
  | .word, token, c :: rest =>
      if shlexSpace c then (shlexWords comments .blank [] rest).map (token :: ·)
      else if comments && c = '#' then (shlexWords comments .comment [] rest).map (token :: ·)
      else if shlexQuote c then shlexWords comments (.quoted c) token rest
      else if c = '\\' then shlexWords comments (.escaped none) token rest
      else shlexWords comments .word (token ++ [c]) rest
  | .quoted _, _, [] => none
  | .quoted quote, token, c :: rest =>
      if c = quote then shlexWords comments .word token rest
      else if c = '\\' && quote = '"' then shlexWords comments (.escaped (some quote)) token rest
      else shlexWords comments (.quoted quote) (token ++ [c]) rest
  | .escaped _, _, [] => none
  | .escaped none, token, c :: rest => shlexWords comments .word (token ++ [c]) rest
  | .escaped (some quote), token, c :: rest =>
      -- only the quote and the backslash itself lose the backslash
      let token := if c = '\\' || c = quote then token else token ++ ['\\']
      shlexWords comments (.quoted quote) (token ++ [c]) rest

def shlexSplit (comments : Bool) (text : Text) : Option (List Text) :=
  shlexWords comments .blank [] text

example : shlexSplit true "push \"route 10.0.0.0  255.0.0.0\" # lan".toList =
    some ["push".toList, "route 10.0.0.0  255.0.0.0".toList] := by decide
example : shlexSplit false "a'b c'\\ d\"\" \"\"".toList =
    some ["ab c d".toList, []] := by decide
example : shlexSplit true "echo \"open".toList = none := by decide

end OpenvpnServer.Lib
