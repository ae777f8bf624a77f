import LiveMarkup.Manifest
import LiveMarkup.Page.Dispatch
import LiveMarkup.Page.Pass
import LiveMarkup.Template.Shown
import LiveMarkup.Proofs.Placement
import LiveMarkup.Proofs.Coalescing
import LiveMarkup.Proofs.Template.Instances
import LiveMarkup.Proofs.Page.Attuned
import LiveMarkup.Proofs.Page.Current
import LiveMarkup.Proofs.Page.Rendered
import LiveMarkup.Proofs.Rendering
import LiveMarkup.Proofs.Reflection
import LiveMarkup.Proofs.Dom.Isolation
import LiveMarkup.Proofs.Dom.Relocation
import LiveMarkup.Proofs.Dom.Removal
import LiveMarkup.Proofs.Dom.Residue
import LiveMarkup.Proofs.Dom.Traversal
import LiveMarkup.Proofs.Markup.Decoding
import LiveMarkup.Proofs.Markup.Values
import LiveMarkup.Proofs.Markup.Verbatim
import LiveMarkup.Proofs.Template.Calls
import LiveMarkup.Proofs.Template.Sequences
import LiveMarkup.Proofs.Template.Stripped
import LiveMarkup.Proofs.Sight
import LiveMarkup.Proofs.Template.SelfReferences
import LiveMarkup.Proofs.Template.Substitution
import LiveMarkup.Proofs.Dispatching
import LiveMarkup.Proofs.Separation
import LiveMarkup.Proofs.Conversion
import LiveMarkup.Proofs.Draining
import LiveMarkup.Proofs.Dom.Styling
import LiveMarkup.Proofs.Confinement
import LiveMarkup.Proofs.Registration
