import AssetGraph.Proofs.Json.Record
import AssetGraph.Rdap.Attributes
import AssetGraph.Rdap.Decode
import Mathlib.Data.List.Basic

/-!
# What is shown of a reported value

Most attributes show the member of their name as it is: writing what was read of it gives it back. The others show what was read in
another form, and links are shown as their addresses.
-/
namespace AssetGraph.Rdap

open Json

section Links

end Links

end AssetGraph.Rdap
