import Mathlib.Data.List.Basic

/-!
# The blacklist of the shell

Before `meow_shell_exec_sync` and its siblings run a command, `cmd_is_blocked` cuts it into tokens
and looks for a rule of the blacklist that fires on them.  A token is read into a buffer of
`blMaxTokenLen` characters, and a longer word goes on as the next token; at most `blMaxTokens`
targets are kept, and at most `blMaxTokenLen - 1` different flags.

A string is the list of its characters up to the terminating NUL.  A target that fills its buffer is
not terminated in the source; nothing is read of it beyond the length of a protected path.
-/

set_option autoImplicit false

namespace FlightApps
namespace Meow

/-- `BL_MAX_TOKENS`. -/
def blMaxTokens : Nat := 16

/-- `BL_MAX_TOKEN_LEN`. -/
def blMaxTokenLen : Nat := 64

/-- The characters of a C string. -/
def chars (text : String) : List UInt8 := text.toList.map fun c => c.toNat.toUInt8

def slash : UInt8 := 0x2F
def dash : UInt8 := 0x2D
def dot : UInt8 := 0x2E
def equalsSign : UInt8 := 0x3D

/-- A space or a tab. -/
def isBlank (c : UInt8) : Bool := c == 0x20 || c == 0x09

/-- `meow_shell_rule_t`. -/
structure ShellRule where
  cmd : List UInt8
  /-- All of them must be among the flags. -/
  reqFlags : Option (List UInt8)
  /-- A protected path that one of the targets must match. -/
  targetPfx : Option (List UInt8)

def gBlacklist : List ShellRule :=
  [⟨chars "rm", some (chars "r"), some (chars "/")⟩,
    ⟨chars "rm", some (chars "R"), some (chars "/")⟩,
    ⟨chars "rm", some (chars "r"), some (chars "/root")⟩,
    ⟨chars "rm", some (chars "R"), some (chars "/root")⟩,
    ⟨chars "rm", some (chars "r"), some (chars "/etc")⟩,
    ⟨chars "rm", some (chars "R"), some (chars "/etc")⟩,
    ⟨chars "mkfs", none, none⟩,
    ⟨chars "dd", none, some (chars "/dev/")⟩,
    ⟨chars "shred", some (chars "r"), some (chars "/")⟩,
    ⟨chars "shred", some (chars "R"), some (chars "/")⟩]

/-! ## The parts of a rule -/

/-- The loop of `cmd_basename`, with what follows the last slash seen. -/
def basenameFrom (p : List UInt8) : List UInt8 → List UInt8
  | [] => p
  | c :: s => if c = slash then basenameFrom s s else basenameFrom p s

def cmdBasename (s : List UInt8) : List UInt8 := basenameFrom s s

/-- `*p == '\0' || *p == c`. -/
def atEndOr (c : UInt8) : List UInt8 → Bool
  | [] => true
  | d :: _ => d == c

/-- `target_matches`. -/
def targetMatches (target pfx : List UInt8) : Bool :=
  let len := pfx.length
  let cmpLen := if len > 1 ∧ pfx.getLast? = some slash then len - 1 else len
  if target.take cmpLen ≠ pfx.take cmpLen then false
  else atEndOr slash (target.drop cmpLen)

def hasAllFlags (found required : List UInt8) : Bool := required.all fun c => found.contains c

/-! ## The tokenizer -/

/-- The flags and the targets read so far. -/
structure ShellArgs where
  flags : List UInt8
  targets : List (List UInt8)

def skipBlanks (p : List UInt8) : List UInt8 := p.dropWhile isBlank

/-- The loop that copies a token into a buffer with `room` left. -/
def readToken : Nat → List UInt8 → List UInt8 × List UInt8
  | 0, p => ([], p)
  | _ + 1, [] => ([], [])
  | room + 1, c :: p =>
    if isBlank c then ([], c :: p)
    else
      let (tok, rest) := readToken room p
      (c :: tok, rest)

/-- `if (!strchr(flags, *f) && nflags < BL_MAX_TOKEN_LEN - 1) flags[nflags++] = *f;` -/
def addFlag (flags : List UInt8) (f : UInt8) : List UInt8 :=
  if !flags.contains f && flags.length < blMaxTokenLen - 1 then flags ++ [f] else flags

/-- What follows the first `=`, or all of the token. -/
def valueOf (tok : List UInt8) : List UInt8 :=
  match tok.dropWhile fun c => c != equalsSign with
  | [] => tok
  | _ :: val => val

/-- A token becomes flags, a target, or nothing. -/
def addToken (args : ShellArgs) (tok : List UInt8) : ShellArgs :=
  if tok.head? = some dash ∧ tok.tail.head? ≠ some dash ∧ tok.tail ≠ [] then
    { args with flags := tok.tail.foldl addFlag args.flags }
  else if tok.head? ≠ some dash then { args with targets := args.targets ++ [valueOf tok] }
  else args

/-- `while (*p && ntargets < BL_MAX_TOKENS)`.  A round reads at least one character. -/
def readTokens : Nat → List UInt8 → ShellArgs → ShellArgs
  | 0, _, args => args
  | rounds + 1, p, args =>
    if p = [] ∨ args.targets.length ≥ blMaxTokens then args
    else
      match skipBlanks p with
      | [] => args
      | c :: p =>
        let (tok, rest) := readToken (blMaxTokenLen - 1) (c :: p)
        readTokens rounds rest (addToken args tok)

/-- The body of the loop over the blacklist. -/
def ruleFires (cmd : List UInt8) (args : ShellArgs) (rule : ShellRule) : Bool :=
  let rlen := rule.cmd.length
  cmd.take rlen == rule.cmd && atEndOr dot (cmd.drop rlen) &&
    (match rule.reqFlags with
      | none => true
      | some required => hasAllFlags args.flags required) &&
    match rule.targetPfx with
    | none => true
    | some pfx => args.targets.any fun t => targetMatches t pfx

def cmdIsBlocked (input : List UInt8) : Bool :=
  let (first, p) := readToken (blMaxTokenLen - 1) (skipBlanks input)
  let args := readTokens p.length p ⟨[], []⟩
  gBlacklist.any (ruleFires (cmdBasename first) args)

end Meow
end FlightApps
