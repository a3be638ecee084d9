/-!
# Paths

The directory part of a path, and what a file system tells about paths.
-/

namespace GameWire

structure FileSystem where
  exists? : String → Bool
  isDirectory : String → Bool

namespace Path

/-- The parts of a path between slashes. -/
def segments : List Char → List (List Char)
  | [] => [[]]
  | c :: cs =>
    if c = '/' then [] :: segments cs
    else match segments cs with
      | [] => [[c]]
      | s :: ss => (c :: s) :: ss

/-- Whether a part of a path leads nowhere else. -/
def isIdle (segment : List Char) : Bool :=
  segment.isEmpty || segment == ['.']

/-- The slash or the dot that a path begins with, and the rest. -/
def split : List Char → List Char × List Char
  | '/' :: cs => (['/'], cs)
  | ['.'] => (['.'], [])
  | '.' :: '/' :: cs => (['.'], '/' :: cs)
  | cs => ([], cs)

/-- The path without its last part, or nothing when there is no part to take away. Idle parts at the
end do not count. -/
def directoryPart (path : String) : String :=
  let (start, body) := split path.toList
  match (segments body).reverse.dropWhile isIdle with
  | [] => ""
  | _ :: above =>
    String.ofList (start ++ ['/'].intercalate (above.dropWhile isIdle).reverse)

end Path

end GameWire
