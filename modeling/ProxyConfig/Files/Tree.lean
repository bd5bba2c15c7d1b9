import ProxyConfig.Files.Access

/-! # File trees

A file system in memory: a tree of directories and files, and a working directory in it. A path is
walked one part at a time, and every part but the last has to lead to a directory.
-/

namespace ProxyConfig

/-- A file with its content, or a directory with its entries. -/
inductive FileNode where
  | file (content : ByteArray)
  | directory (entries : List (String × FileNode))

namespace FileNode

def kind : FileNode → EntryKind
  | file _ => .file
  | directory _ => .directory

/-- What the names lead to. -/
def get? : List String → FileNode → Option FileNode
  | [], node => some node
  | name :: rest, directory entries => (entries.lookup name).bind (get? rest)
  | _ :: _, file _ => none

/-- Puts a node in the place that the names lead to; directories on the way are made as needed. -/
def put (leaf : FileNode) : List String → FileNode → FileNode
  | [], _ => leaf
  | name :: rest, directory entries =>
    match entries.lookup name with
    | none => directory (entries ++ [(name, put leaf rest (directory []))])
    | some node =>
      directory (entries.map fun (n, old) => (n, if n = name then put leaf rest node else old))
  | _ :: _, node => node

mutual

/-- The files below a node with their paths. -/
def files (path : String) : FileNode → List (String × ByteArray)
  | file content => [(path, content)]
  | directory entries => filesOf path entries

def filesOf (path : String) : List (String × FileNode) → List (String × ByteArray)
  | [] => []
  | (name, node) :: rest => files (joinPath path name) node ++ filesOf path rest

end

end FileNode

/-- A tree and the working directory in it. -/
structure FileTree where
  root : FileNode
  workingDirectory : List String

namespace FileTree

/-- Where a part of a path leads from a directory. -/
def step (tree : FileTree) (place : List String) (part : String) :
    Except AccessError (List String) :=
  match tree.root.get? place with
  | some (.directory entries) =>
    if part.isEmpty || part == "." then .ok place
    else if part == ".." then .ok place.dropLast
    else if (entries.lookup part).isSome then .ok (place ++ [part])
    else .error .notFound
  | some (.file _) => .error .notDirectory
  | none => .error .notFound

/-- The place from which a path is walked, and its parts. -/
def start (tree : FileTree) (path : String) : List String × List String :=
  let parts := pathParts path
  match parts with
  | "" :: rest => ([], rest)
  | _ => (tree.workingDirectory, parts)

/-- The place that a path leads to. -/
def place (tree : FileTree) (path : String) : Except AccessError (List String) :=
  if path.isEmpty then .error .notFound
  else
    let (start, parts) := tree.start path
    parts.foldlM tree.step start

/-- What a path leads to. -/
def node (tree : FileTree) (path : String) : Except AccessError FileNode := do
  match tree.root.get? (← tree.place path) with
  | some node => return node
  | none => .error .notFound

def read (tree : FileTree) (path : String) : Except AccessError ByteArray := do
  match ← tree.node path with
  | .file content => return content
  | .directory _ => .error .isDirectory

/-- The place of a file that is to be written. The path has to end in the name of a file, which need
not be there yet, in a directory. -/
def writePlace (tree : FileTree) (path : String) : Except AccessError (List String) := do
  if path.isEmpty then .error .notFound
  let (start, parts) := tree.start path
  let trailing := parts.reverse.takeWhile String.isEmpty
  let named := parts.take (parts.length - trailing.length)
  match named.getLast? with
  | none => .error .isDirectory
  | some last =>
    let parent ← named.dropLast.foldlM tree.step start
    match tree.root.get? parent with
    | some (.directory entries) =>
      if !trailing.isEmpty || last == "." || last == ".." then .error .isDirectory
      else
        match entries.lookup last with
        | some (.directory _) => .error .isDirectory
        | _ => return parent ++ [last]
    | some (.file _) => .error .notDirectory
    | none => .error .notFound

/-- The tree with another content of a file. -/
def write (tree : FileTree) (path : String) (content : ByteArray) : Except AccessError FileTree := do
  let place ← tree.writePlace path
  return { tree with root := FileNode.put (.file content) place tree.root }

/-- The names in a directory, in ascending order. -/
def names (tree : FileTree) (path : String) : List String :=
  match tree.node path with
  | .ok (.directory entries) => (entries.map (·.1)).mergeSort fun a b => !decide (b < a)
  | _ => []

instance : FileSystem (StateM FileTree) where
  kind? path := return (← get).node path |>.toOption.map FileNode.kind
  read path := return (← get).read path
  write path content := do
    match (← get).write path content with
    | .ok tree => set tree; return .ok ()
    | .error e => return .error e
  names path := return (← get).names path

end FileTree

end ProxyConfig
