/-!
# Text as a list of characters

All texts of the library are lists of characters, so that searching, cutting and
replacing are plain recursions. String literals are read as texts by coercion.
-/

namespace LintDirectives

abbrev Text := List Char

instance : Coe String Text := ⟨String.toList⟩

namespace Text

/-- Cut a text at the first occurrence of `mark`, dropping that occurrence. -/
def cut? (mark : Text) : Text → Option (Text × Text)
  | [] => if mark.isEmpty then some ([], []) else none
  | c :: rest =>
    match mark.isPrefixOf? (c :: rest) with
    | some after => some ([], after)
    | none => (cut? mark rest).map fun (before, after) => (c :: before, after)

def occursIn (part whole : Text) : Bool :=
  (cut? part whole).isSome

def replaceFirst (old new whole : Text) : Text :=
  match cut? old whole with
  | some (before, after) => before ++ new ++ after
  | none => whole

/-- Replace every occurrence of `old`, scanning from the left. The counter says how
many characters of the current occurrence are still to be dropped. -/
def replaceFrom (old new : Text) : Nat → Text → Text
  | _, [] => []
  | k + 1, _ :: rest => replaceFrom old new k rest
  | 0, c :: rest =>
    if old.isPrefixOf (c :: rest) then new ++ replaceFrom old new (old.length - 1) rest
    else c :: replaceFrom old new 0 rest

/-- Replace every occurrence of the non-empty text `old`, from left to right. -/
def replaceAll (old new whole : Text) : Text :=
  replaceFrom old new 0 whole

/-- Drop the longest run of characters satisfying `p` at the end. -/
def dropEndWhile (p : Char → Bool) (t : Text) : Text :=
  (t.reverse.dropWhile p).reverse

def firstLine (t : Text) : Text :=
  t.takeWhile (· != '\n')

/-- The texts one after the other, with `mark` between neighbours. -/
def join (mark : Text) (parts : List Text) : Text :=
  (parts.intersperse mark).flatten

@[simp] theorem join_nil (mark : Text) : join mark [] = [] := rfl

@[simp] theorem join_singleton (mark part : Text) : join mark [part] = part := by
  simp [join]

theorem join_cons_cons (mark part next : Text) (rest : List Text) :
    join mark (part :: next :: rest) = part ++ (mark ++ join mark (next :: rest)) := by
  simp [join]

def lines (parts : List Text) : Text :=
  join ['\n'] parts

/-- A natural number in decimal digits. -/
def ofNat (n : Nat) : Text :=
  Nat.toDigits 10 n

/-- An integer in decimal digits, with a minus sign when it is negative. -/
def ofInt (n : Int) : Text :=
  if n < 0 then '-' :: ofNat n.natAbs else ofNat n.natAbs

/-- The order by code point, a shorter text before its extensions. -/
def le (a b : Text) : Bool :=
  !(b.lex a fun x y => x.toNat < y.toNat)

end Text

end LintDirectives
