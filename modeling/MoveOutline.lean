import MoveOutline.Proofs.Outline.Cut
import MoveOutline.Proofs.Outline.Naming
import MoveOutline.Proofs.Scope.Path
import MoveOutline.Proofs.Syntax.Arena
import MoveOutline.Proofs.Syntax.Links
import MoveOutline.Proofs.Syntax.Lookup
import MoveOutline.Proofs.Syntax.Rebuild
import MoveOutline.Proofs.Workspace.History
import MoveOutline.Proofs.Workspace.InForce
import MoveOutline.Proofs.Workspace.Independence
import MoveOutline.Syntax.Cursor
import MoveOutline.Syntax.Listing
import MoveOutline.Syntax.Preorder
import MoveOutline.Syntax.Script
import MoveOutline.Wire.Codec
import MoveOutline.Workspace.Command
import MoveOutline.Proofs.Json.Reading
import MoveOutline.Proofs.Wire.RoundTrip
import MoveOutline.Proofs.Wire.Schema
import MoveOutline.Proofs.Outline.Contents
import MoveOutline.Proofs.Syntax.Tour
import MoveOutline.Proofs.Outline.Imports
import MoveOutline.Proofs.Outline.Functions
import MoveOutline.Proofs.Syntax.Answers
import MoveOutline.Proofs.Workspace.Replies
import MoveOutline.Proofs.Settings
import MoveOutline.Proofs.Syntax.Traversal
import MoveOutline.Proofs.Outline.Verbatim
import MoveOutline.Proofs.Scope.Frames
import MoveOutline.Proofs.Workspace.Log
import MoveOutline.Proofs.Syntax.Navigation
import MoveOutline.Proofs.Outline.Signature
