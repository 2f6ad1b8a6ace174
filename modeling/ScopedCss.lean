import ScopedCss.Config.OfText
import ScopedCss.Definition.Equality
import ScopedCss.Definition.OfText
import ScopedCss.Proofs.Definition.Reading
import ScopedCss.Proofs.Flatten.Preorder
import ScopedCss.Proofs.Flatten.Written
import ScopedCss.Proofs.Selector.Placeholders
import ScopedCss.Proofs.Stylesheet.Run
import ScopedCss.Proofs.Stylesheet.Numbers
import ScopedCss.Proofs.Css.Decode
import ScopedCss.Proofs.Stylesheet.Growth
import ScopedCss.Proofs.Selector.Template
import ScopedCss.Proofs.Flatten.Renaming
import ScopedCss.Proofs.Selector.Resolution
import ScopedCss.Proofs.Property.Unit
import ScopedCss.Proofs.Property.Spelling
import ScopedCss.Proofs.Flatten.Fallbacks
import ScopedCss.Proofs.Definition.Entrywise
import ScopedCss.Proofs.Flatten.Global
import ScopedCss.Proofs.Flatten.Documents
import ScopedCss.Proofs.Css.Essence
import ScopedCss.Proofs.Stylesheet.Filled
import ScopedCss.Proofs.Selector.Splitting
import ScopedCss.Proofs.Definition.MapLevels
import ScopedCss.Proofs.Flatten.Pseudos
import ScopedCss.Proofs.Flatten.Spellings
