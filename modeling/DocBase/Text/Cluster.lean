import DocBase.Text.BreakClass

/-!
Clusters: the pieces of a text that a reader takes for one character each, such as a letter with its
accents, a syllable, or a flag. The clusters of a text are the text cut into pieces.
-/

namespace DocBase.Text

namespace BreakClass

/-- Whether a break stands before and behind the character, whatever its neighbours are. -/
def isolates : BreakClass → Bool
  | carriageReturn | lineFeed | control => true
  | _ => false

/-- Whether the character extends the one before it without room of its own. -/
def isExtending : BreakClass → Bool
  | mark | linker | nonJoiner => true
  | _ => false

/-- Whether the character joins what stands before it, whatever that is. -/
def trails : BreakClass → Bool
  | joiner | spacingMark => true
  | cls => cls.isExtending

/-- Whether the character may stand between consonants that a linker links. -/
def passesLink : BreakClass → Bool
  | mark | linker | joiner => true
  | _ => false

def sharesSyllable : BreakClass → BreakClass → Bool
  | leadingJamo, leadingJamo | leadingJamo, vowelJamo => true
  | leadingJamo, openSyllable | leadingJamo, closedSyllable => true
  | vowelJamo, vowelJamo | vowelJamo, trailingJamo => true
  | openSyllable, vowelJamo | openSyllable, trailingJamo => true
  | trailingJamo, trailingJamo | closedSyllable, trailingJamo => true
  | _, _ => false

/-- Whether a cluster, its last character first, ends with a consonant and a linker behind it. -/
def endsLinked (cluster : List BreakClass) : Bool :=
  (cluster.takeWhile passesLink).contains linker &&
    (cluster.dropWhile passesLink).head? = some consonant

/-- Whether a cluster, its last character first, is a pictograph with what extends it. -/
def endsPictured (cluster : List BreakClass) : Bool :=
  (cluster.dropWhile isExtending).head? = some pictograph

/-- Whether a cluster, its last character first, ends with the first half of a flag. -/
def endsHalfFlag (cluster : List BreakClass) : Bool :=
  (cluster.takeWhile (· = regional)).length % 2 = 1

/-- Whether a character joins a cluster, which is given with its last character first. -/
def joins : List BreakClass → BreakClass → Bool
  | [], _ => false
  | last :: before, next =>
    if last.isolates || next.isolates then last = carriageReturn && next = lineFeed
    else
      next.trails || last = prepended || sharesSyllable last next ||
        (next = consonant && endsLinked (last :: before)) ||
        (next = pictograph && last = joiner && endsPictured before) ||
        (next = regional && endsHalfFlag (last :: before))

end BreakClass

/-- The rest of the open cluster and the clusters behind it. The open cluster is known by the classes
of its characters so far, last first. -/
def cut (cluster : List BreakClass) : List Char → List Char × List (List Char)
  | [] => ([], [])
  | c :: cs =>
    let cls := BreakClass.ofChar c
    if BreakClass.joins cluster cls then
      let (rest, clusters) := cut (cls :: cluster) cs
      (c :: rest, clusters)
    else
      let (rest, clusters) := cut [cls] cs
      ([], (c :: rest) :: clusters)

def clusters (cs : List Char) : List (List Char) := (cut [] cs).2

theorem cut_flatten (cluster : List BreakClass) (cs : List Char) :
    (cut cluster cs).1 ++ (cut cluster cs).2.flatten = cs := by
  induction cs generalizing cluster with
  | nil => rfl
  | cons c cs ih =>
    simp only [cut]
    split
    · exact congrArg (c :: ·) (ih _)
    · exact congrArg (c :: ·) (ih _)

theorem cut_nil_fst (cs : List Char) : (cut [] cs).1 = [] := by
  cases cs <;> rfl

theorem clusters_flatten (cs : List Char) : (clusters cs).flatten = cs := by
  simpa only [clusters, cut_nil_fst, List.nil_append] using cut_flatten [] cs

end DocBase.Text
