import Tandem.Store.TaskState
/-!
# The shared scene

Both participants look at one scene, each through a window of their own.  `SceneWindow.shows` tells whether
any part of an object lies inside a window; all four comparisons are strict, so an object that only touches
the edge is not shown.
-/

namespace Tandem

/-- An object placed in the scene. -/
structure SceneObject where
  id : ObjectId
  kind : ObjectKind
  image : String
  x : Binary64
  y : Binary64
  width : Binary64
  height : Binary64

/-- The part of the scene that a participant can see. -/
structure SceneWindow where
  minX : Binary64
  maxX : Binary64
  minY : Binary64
  maxY : Binary64

namespace SceneWindow

/-- The window with a number, as the matching task describes it. -/
def ofState (s : TaskState) (n : Nat) : SceneWindow :=
  ⟨s.real s!"window-{n}-minx", s.real s!"window-{n}-maxx", s.real s!"window-{n}-miny",
    s.real s!"window-{n}-maxy"⟩

/-- Whether any part of an object lies inside the window. -/
def shows (w : SceneWindow) (o : SceneObject) : Bool :=
  o.x.lt w.maxX && w.minX.lt (o.x + o.width) && o.y.lt w.maxY && w.minY.lt (o.y + o.height)

end SceneWindow

/-- A weakness of a round's scene.  It is reported and changes nothing. -/
inductive SceneWarning where
  /-- No object of the target kind is in the scene. -/
  | targetMissing (kind : ObjectKind)
  /-- No object of the target kind shows in the window with this number. -/
  | targetNotVisible (window : Nat)
  /-- Several objects are of the target kind. -/
  | ambiguousTarget (candidates : List ObjectId)
deriving DecidableEq

/-- The weaknesses of a scene for a target kind and the two windows. -/
def sceneWarnings (scene : List SceneObject) (kind : ObjectKind) (windows : SceneWindow × SceneWindow) :
    List SceneWarning :=
  let candidates := scene.filter (fun o => o.kind = kind)
  if candidates.isEmpty then [.targetMissing kind]
  else
    (if 1 < candidates.length then [.ambiguousTarget (candidates.map (·.id))] else [])
      ++ (if candidates.any windows.1.shows then [] else [.targetNotVisible 1])
      ++ (if candidates.any windows.2.shows then [] else [.targetNotVisible 2])

end Tandem
