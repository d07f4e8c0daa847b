/-!
# The messages of a watched pane

The application messages that carry terminal input, the watch of a pane and its
frames. A string is the list of its characters; a missing optional field is
`none`.
-/
namespace HerdrMobile.Proto.Messages

set_option autoImplicit false

abbrev Text := List Char

abbrev PaneId := Text

inductive Platform where
  | ios
  | android
  deriving DecidableEq

/-- R-11-253. -/
inductive Defer where
  | untilIdle
  | cancel
  deriving DecidableEq

structure SendInput where
  paneId : PaneId
  line : Option Text := none
  text : Option Text := none
  keys : Option (List Text) := none
  defer : Option Defer := none
  bypassLine : Option Bool := none
  deriving DecidableEq

structure SendInputAck where
  paneId : PaneId
  accepted : Bool
  queued : Bool
  deriving DecidableEq

structure ScrollOffsets where
  offsetFromBottom : Nat
  maxOffsetFromBottom : Nat
  deriving DecidableEq

structure WatchAck where
  paneId : PaneId
  line : Text
  revision : Nat
  viewportRows : Nat
  width : Nat
  scroll : ScrollOffsets
  deriving DecidableEq

structure PaneFrame where
  paneId : PaneId
  revision : Nat
  viewportRows : Nat
  width : Nat
  text : Text
  deriving DecidableEq

end HerdrMobile.Proto.Messages
