/-!
# Paths as text

A path is kept as it was given and printed as it was given: nothing is
normalised. The operations here read its structure. Its *pieces* are what
stands between the slashes; a piece that is empty or a single dot is
*filler* and names nothing.
-/

namespace LoxScan.Path

/-- The pieces of a path, the empty ones included. -/
def pieces (cs : List Char) : List (List Char) :=
  match _h : cs.dropWhile (· ≠ '/') with
  | [] => [cs]
  | _ :: rest => cs.takeWhile (· ≠ '/') :: pieces rest
termination_by cs.length
decreasing_by
  have hle := (List.dropWhile_suffix (l := cs) (· ≠ '/')).length_le
  rw [_h, List.length_cons] at hle
  omega

/-- Whether a piece names nothing. -/
def isFiller (piece : List Char) : Bool := piece == [] || piece == ['.']

def isAbsolute (path : String) : Bool := path.toList.head? == some '/'

/-- A final slash asks for a directory. -/
def endsInSlash (path : String) : Bool := path.toList.getLast? == some '/'

/-- The names a path walks through, dots included. -/
def names (path : String) : List String :=
  ((pieces path.toList).filter (· ≠ [])).map String.ofList

/-- A path below another: an absolute one replaces it, any other follows
it after a slash, which is put in only where it is missing. -/
def join (base path : String) : String :=
  if isAbsolute path then path
  else if base.isEmpty || endsInSlash base then base ++ path
  else base ++ "/" ++ path

/-- A path cut into what it starts from (the root, a leading dot, or
nothing) and the pieces after that, the last one first. -/
def anchor (path : String) : List Char × List (List Char) :=
  match path.toList with
  | '/' :: body => (['/'], (pieces body).reverse)
  | '.' :: '/' :: body => (['.'], (pieces ('/' :: body)).reverse)
  | ['.'] => (['.'], [])
  | body => ([], (pieces body).reverse)

/-- The pieces, last first, without the last one that names something
and the filler around it. -/
def dropName? (backwards : List (List Char)) : Option (List (List Char)) :=
  match backwards.dropWhile isFiller with
  | [] => none
  | _ :: rest => some (rest.dropWhile isFiller)

theorem length_lt_of_dropName? {ps qs : List (List Char)} (h : dropName? ps = some qs) :
    qs.length < ps.length := by
  unfold dropName? at h
  split at h
  · simp at h
  · rename_i p rest hp
    have h1 := (List.dropWhile_suffix (l := ps) isFiller).length_le
    have h2 := (List.dropWhile_suffix (l := rest) isFiller).length_le
    rw [hp, List.length_cons] at h1
    have : rest.dropWhile isFiller = qs := by simpa using h
    rw [this] at h2
    omega

def assemble (anchor : List Char) (backwards : List (List Char)) : String :=
  String.ofList (anchor ++ List.intercalate ['/'] backwards.reverse)

/-- The directories above a place, nearest first. A leading dot stands in
nothing; the root stands in no directory. -/
def ancestors (anchor : List Char) (backwards : List (List Char)) : List String :=
  match _h : dropName? backwards with
  | some above => assemble anchor above :: ancestors anchor above
  | none => if anchor = ['.'] then [""] else []
termination_by backwards.length
decreasing_by exact length_lt_of_dropName? _h

def parents (path : String) : List String :=
  let (start, backwards) := anchor path
  ancestors start backwards

def parent? (path : String) : Option String := (parents path).head?

end LoxScan.Path
