import AssetGraph.Address
import AssetGraph.Numeral
import AssetGraph.Text

/-!
# Reverse-lookup names

The name under which the pointer record of an address is kept: its octets or nibbles from the lowest, one label
each, under `in-addr.arpa.` or `ip6.arpa.`
-/
namespace AssetGraph.Address

/-- The labels of a reverse name, the lowest part of the address first. -/
def reverseLabels (a : Address) : List String :=
  let labels := match a with
    | v4 _ => a.octets.reverse.map (Numeral.render 10)
    | v6 _ => a.octets.reverse.flatMap fun o => [Numeral.render 16 (o % 16), Numeral.render 16 (o / 16)]
  labels.map String.ofList

def reverseZone : Address → String
  | v4 _ => "in-addr.arpa."
  | v6 _ => "ip6.arpa."

def reverseName (a : Address) : String :=
  Text.join "." (a.reverseLabels ++ [a.reverseZone])

end AssetGraph.Address
