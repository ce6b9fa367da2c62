import RatingArchive.File
import RatingArchive.Text.Split
/-!
# Volumes

What a tool can see and change of a file system: where paths lead, which files there are, and where
files can be made. Several paths may lead to one place; a file that is written by one of them is
seen by the others.

* `content?_store`: a file that was stored at a place is found there by every path to it.
* `content?_store_of_ne`: the files at other places stay as they were.
-/

namespace RatingArchive.Tool

/-- A path without the parts that lead nowhere: empty names, and names of a single point. A path
that ends in one of them leads to a folder, and so ends in a slash here. -/
def plainPath (path : String) : String :=
  let idle (name : List Char) : Bool := name.isEmpty || name == ['.']
  let names := Text.splitOn ['/'] path.toList
  let steps := (names.filter fun name => !idle name).map String.ofList
  let root := if path.toList.head? = some '/' then "/" else ""
  let folder := if steps.isEmpty || !names.getLast?.any idle then "" else "/"
  root ++ String.intercalate "/" steps ++ folder

/-- A collection of files by place. -/
structure Volume where
  /-- The place to which a path leads. -/
  place : String → String
  /-- The file at a place. -/
  file? : String → Option File
  /-- Whether a file can be made, or overwritten, at a place. -/
  canCreate : String → Bool

namespace Volume

/-- The file to which a path leads, opened by that path. -/
def open? (volume : Volume) (path : String) : Option File :=
  (volume.file? (volume.place path)).map fun file => { file with path := some path }

/-- The content of the file to which a path leads. -/
def content? (volume : Volume) (path : String) : Option Bytes :=
  (volume.open? path).map File.content

/-- Whether a file can be made, or overwritten, where a path leads. -/
def admits (volume : Volume) (path : String) : Bool := volume.canCreate (volume.place path)

/-- The volume with a file where `path` leads that has the given content. -/
def store (volume : Volume) (path : String) (content : Bytes) : Volume :=
  { volume with
    file? := fun place =>
      if place = volume.place path then
        some ⟨content, some path, (volume.file? place).bind File.modified⟩
      else volume.file? place }

theorem content?_store {volume : Volume} {path other : String} (content : Bytes)
    (h : volume.place other = volume.place path) :
    (volume.store path content).content? other = some content := by
  simp [content?, open?, store, h]

theorem content?_store_of_ne {volume : Volume} {path other : String} (content : Bytes)
    (h : volume.place other ≠ volume.place path) :
    (volume.store path content).content? other = volume.content? other := by
  simp [content?, open?, store, h]

/-- Of two files that are stored at one place the second is there in the end. -/
theorem store_store (volume : Volume) (path : String) (first second : Bytes) :
    (volume.store path first).store path second = volume.store path second := by
  unfold store
  congr 1
  funext place
  by_cases h : place = volume.place path
  · simp only [if_pos h]
    rfl
  · simp only [if_neg h]

end Volume

end RatingArchive.Tool
