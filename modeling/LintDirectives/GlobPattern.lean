import LintDirectives.Text

/-!
# Glob patterns

A star stands for any text, a question mark for any character, and a bracketed set for one
character in it. A set may hold ranges, is negated by a leading exclamation mark, and takes
a closing bracket literally in its first place. A bracket that is never closed stands for
itself. Ranges whose ends are reversed are dropped together with both ends. A pattern has
to match the whole text.
-/

namespace LintDirectives.Glob

/-- A part of a set: one character or a closed range. -/
inductive Member where
  | char (c : Char)
  | range (first last : Char)
deriving DecidableEq

namespace Member

/-- Whether a character belongs to the part. -/
def accepts (m : Member) (c : Char) : Bool :=
  match m with
  | char d => c == d
  | range first last => decide (first.toNat ≤ c.toNat) && decide (c.toNat ≤ last.toNat)

end Member

inductive Piece where
  | star
  | any
  | char (c : Char)
  | set (negated : Bool) (members : List Member)
deriving DecidableEq

namespace Piece

/-- Whether a piece other than the star accepts a character. -/
def accepts (p : Piece) (c : Char) : Bool :=
  match p with
  | star => true
  | any => true
  | char d => c == d
  | set negated members => negated != members.any (·.accepts c)

end Piece

/-- Split the inside of a set at the hyphens that make ranges. Such a hyphen has a character
on its left that no other range uses: the count says how many characters have to pass
before the next one is looked for. -/
def rangeChunks : Nat → Text → Text → List Text
  | _, chunk, [] => [chunk.reverse]
  | k + 1, chunk, c :: rest => rangeChunks k (c :: chunk) rest
  | 0, chunk, c :: rest =>
    if c == '-' then chunk.reverse :: rangeChunks 2 [] rest
    else rangeChunks 0 (c :: chunk) rest

/-- A hyphen with nothing after it belongs to the chunk before it. -/
def mergeFinalHyphen : List Text → List Text
  | [chunk, []] => [chunk ++ ['-']]
  | chunk :: rest => chunk :: mergeFinalHyphen rest
  | [] => []

/-- Put a chunk before others, dropping the range between them when its ends are reversed. -/
def joinChunk (chunk : Text) (others : List Text) : List Text :=
  match others with
  | (first :: next) :: rest =>
    match chunk.getLast? with
    | some last =>
      if first.toNat < last.toNat then (chunk.dropLast ++ next) :: rest else chunk :: others
    | none => chunk :: others
  | _ => chunk :: others

/-- What a set is written with: plain characters, and hyphens that make ranges. -/
inductive SetSign where
  | char (c : Char)
  | hyphen
deriving DecidableEq

/-- The chunks in a row, with range hyphens between them. -/
def signs (chunks : List Text) : List SetSign :=
  ((chunks.map (·.map SetSign.char)).intersperse [SetSign.hyphen]).flatten

def members : List SetSign → List Member
  | .char first :: .hyphen :: .char last :: rest => .range first last :: members rest
  | .char c :: rest => .char c :: members rest
  | .hyphen :: rest => .char '-' :: members rest
  | [] => []

def setPiece (inside : Text) : Piece :=
  let skipped := if inside.head? == some '!' then 2 else 1
  let chunks := (mergeFinalHyphen (rangeChunks skipped [] inside)).foldr joinChunk []
  match signs chunks with
  | [.char '!'] => .any
  | .char '!' :: rest => .set true (members rest)
  | rest => .set false (members rest)

/-- The inside of a set and the pattern after it, given the pattern after the opening
bracket, or nothing when the set is not closed. -/
def setBounds? (t : Text) : Option (Text × Text) :=
  let (bang, t) := match t with
    | '!' :: rest => (['!'], rest)
    | _ => ([], t)
  let (bracket, t) := match t with
    | ']' :: rest => ([']'], rest)
    | _ => ([], t)
  match t.dropWhile (· != ']') with
  | _ :: rest => some (bang ++ bracket ++ t.takeWhile (· != ']'), rest)
  | [] => none

theorem length_setBounds? {t inside rest : Text} (h : setBounds? t = some (inside, rest)) :
    rest.length < t.length := by
  unfold setBounds? at h
  split at h
  rename_i bang u hu
  split at h
  rename_i bracket v hv
  split at h
  · rename_i b r hr
    have hb := (List.dropWhile_sublist (p := (· != ']')) (l := v)).length_le
    rw [hr, List.length_cons] at hb
    simp only [Option.some.injEq, Prod.mk.injEq] at h
    obtain ⟨-, rfl⟩ := h
    have huv : v.length ≤ u.length := by
      split at hv <;> simp only [Prod.mk.injEq] at hv <;> obtain ⟨-, rfl⟩ := hv <;> simp
    have htu : u.length ≤ t.length := by
      split at hu <;> simp only [Prod.mk.injEq] at hu <;> obtain ⟨-, rfl⟩ := hu <;> simp
    omega
  · simp at h

def pieces : Text → List Piece
  | [] => []
  | c :: rest =>
    if c == '*' then .star :: pieces rest
    else if c == '?' then .any :: pieces rest
    else if c == '[' then
      match h : setBounds? rest with
      | some (inside, after) =>
        have := length_setBounds? h
        setPiece inside :: pieces after
      | none => .char '[' :: pieces rest
    else .char c :: pieces rest
termination_by t => t.length
decreasing_by all_goals simp_wf <;> omega

/-- For each place in a list, whether `true` stands at that place or behind it. -/
def anyFrom : List Bool → List Bool
  | [] => []
  | b :: rest =>
    let after := anyFrom rest
    (b || after.headD false) :: after

/-- For each tail of a text, the text itself first, whether pieces match all of that tail. -/
def tailMatches (t : Text) : List Piece → List Bool
  | [] => t.map (fun _ => false) ++ [true]
  | .star :: ps => anyFrom (tailMatches t ps)
  | p :: ps => t.zipWith (fun c after => p.accepts c && after) (tailMatches t ps).tail ++ [false]

/-- Whether a pattern matches a whole text. -/
def accepts (pattern t : Text) : Bool :=
  (tailMatches t (pieces pattern)).headD false

end LintDirectives.Glob
