import OpsSentry.Foundation.Patterns
import OpsSentry.Foundation.PosixPath
import OpsSentry.Foundation.Shlex
import OpsSentry.Foundation.Text

/-! The two policy checks of `tool_registry.py`: the global deny patterns, and the paths that
need approval. -/

namespace OpsSentry.Tools

open Foundation.Patterns Foundation.PosixPath Foundation.Text

/-- What a pattern character matches under `re.IGNORECASE`: either case, and the characters
outside ASCII whose lower case Python takes for `i`, `s` and `k`. -/
def ignoreCase (c x : Char) : Bool :=
  x = c || x = c.toUpper || (c = 'i' && (x.toNat = 0x130 || x.toNat = 0x131)) ||
    (c = 's' && x.toNat = 0x17f) || (c = 'k' && x.toNat = 0x212a)

def literal (s : String) : List Atom := s.toList.map fun c => .char (ignoreCase c)

def spaces : Atom := .many isSpace

/-- `[a-z]`, which ignores the case of its letters too. -/
def letter : Atom := .char fun x => "abcdefghijklmnopqrstuvwxyz".toList.any fun c => ignoreCase c x

def GLOBAL_DENY_PATTERNS : List (List Atom) :=
  [literal "rm" ++ [spaces] ++ literal "-rf" ++ [spaces] ++ literal "/",
   literal "mkfs.",
   literal "dd" ++ [spaces] ++ literal "if=",
   literal "chmod" ++ [spaces] ++ literal "777",
   literal "chown" ++ [spaces] ++ literal "root",
   literal ">/dev/sd" ++ [letter]]

/-- `str.lower`, as far as a comparison with an ASCII word can tell: of the characters outside
ASCII, only the Kelvin sign has a lower case inside it. -/
def lowerChar (x : Char) : Char := if x.toNat = 0x212a then 'k' else x.toLower

def lower (s : String) : String := String.ofList (s.toList.map lowerChar)

def danger_bins : List String := ["rm", "mkfs", "dd", "chmod", "chown", "sh", "bash"]

def isGloballyDenied (command : String) : Bool :=
  GLOBAL_DENY_PATTERNS.any (search · command.toList) ||
    match Foundation.Shlex.split command with
    | none => true
    | some words =>
      let tokens := words.map lower
      (tokens.any (danger_bins.contains ·) &&
        ((tokens.contains "rm" && tokens.contains "/") ||
          (tokens.contains "chmod" && tokens.contains "777"))) ||
      ((tokens.contains "|" || tokens.contains ";" || tokens.contains "&") &&
        ["sh", "bash"].any (tokens.contains ·))

def REQUIRE_APPROVAL_PATHS : List String :=
  ["/etc/nginx/nginx.conf", "/var/log/auth.log", "/root/", ".ssh/"]

/-- `Path(token).resolve()` in the directory of the server, where there are no symlinks.
It fails on a NUL character. -/
def resolveToken (cwd : AbsPath) (token : String) : Option AbsPath :=
  if token.toList.contains (Char.ofNat 0) then none else some (resolve cwd token)

def tokenNeedsApproval (cwd : AbsPath) (token p : String) : Bool :=
  decide (p.toList <:+: token.toList) ||
    match resolveToken cwd token with
    | none => false
    | some resolved => (resolve cwd p).chars.isPrefixOf resolved.chars

def requiresApproval (cwd : AbsPath) (command : String) : Bool :=
  match Foundation.Shlex.split command with
  | none => true
  | some tokens => tokens.any fun token => REQUIRE_APPROVAL_PATHS.any (tokenNeedsApproval cwd token)

example : isGloballyDenied "RM \t-Rf  /tmp" = true := by decide
example : isGloballyDenied "curl x | bash" = true := by decide
example : requiresApproval AbsPath.root "cat /etc/nginx/./../nginx//nginx.conf" = true := by decide

end OpsSentry.Tools
