import Sheprd.Review.Diff

namespace Sheprd.Review.FileTree

open Lib

inductive Node where
  | folder (path label : Chars) (depth : ℕ)
  | file (file depth : ℕ)

def Node.depth : Node → ℕ
  | folder _ _ depth => depth
  | file _ depth => depth

inductive Child where
  | dir (name : Chars) (children : List Child)
  | file (file : ℕ)

def insert (children : List Child) : List Chars → ℕ → List Child
  | [], _ => children
  | [_], file => children ++ [.file file]
  | name :: next :: rest, file =>
      match children.getLast? with
      | some (.dir last inner) =>
          if last = name then children.dropLast ++ [.dir last (insert inner (next :: rest) file)]
          else children ++ [.dir name (insert [] (next :: rest) file)]
      | _ => children ++ [.dir name (insert [] (next :: rest) file)]

mutual

def Child.nodes (before : Chars) (depth : ℕ) : Child → List Node
  | .file file => [.file file depth]
  | .dir name children => joined before depth name children

def joined (before : Chars) (depth : ℕ) (label : Chars) : List Child → List Node
  | [] => [.folder (before ++ label ++ ['/']) (label ++ ['/']) depth]
  | [.dir only inner] => joined before depth (label ++ '/' :: only) inner
  | child :: rest =>
      .folder (before ++ label ++ ['/']) (label ++ ['/']) depth ::
        (child.nodes (before ++ label ++ ['/']) (depth + 1) ++ flatten (before ++ label ++ ['/']) (depth + 1) rest)

def flatten (before : Chars) (depth : ℕ) : List Child → List Node
  | [] => []
  | child :: rest => child.nodes before depth ++ flatten before depth rest

end

def parts (path : String) : List Chars := (Text.splitOn ['/'] path.toList).filter (· ≠ [])

def children (diff : Diff) : List Child :=
  diff.files.zipIdx.foldl (fun children (file, index) => insert children (parts file.path) index) []

def build (diff : Diff) : List Node := flatten [] 0 (children diff)

structure Above where
  folder : ℕ
  seen : Bool
  closed : Bool

def reveal : List Above → List ℕ × List Above × Bool
  | [] => ([], [], true)
  | above :: rest =>
      let new := if above.seen then [] else [above.folder]
      if above.closed then (new, { above with seen := true } :: rest, false)
      else
        let (more, rest, open') := reveal rest
        (new ++ more, { above with seen := true } :: rest, open')

structure Shown where
  shown : List ℕ := []
  stack : List Above := []

def visit (closed : Chars → Bool) (filtered : Bool) (keep : ℕ → Bool) (state : Shown) : Node × ℕ → Shown
  | (.folder path _ depth, index) =>
      { state with stack := state.stack.take depth ++ [⟨index, false, !filtered && closed path⟩] }
  | (.file file depth, index) =>
      let stack := state.stack.take depth
      if keep file then
        let (new, stack, open') := reveal stack
        { shown := state.shown ++ new ++ if open' then [index] else [], stack }
      else { state with stack }

def shown (nodes : List Node) (closed : Chars → Bool) (filtered : Bool) (keep : ℕ → Bool) : List ℕ :=
  (nodes.zipIdx.foldl (visit closed filtered keep) {}).shown

end Sheprd.Review.FileTree
