import ActiveBgp.Peering.ExportedRoutes

namespace ActiveBgp.Peering.Exports

open ActiveBgp.Python ActiveBgp.Shell ActiveBgp.Bird ActiveBgp.Bird.Path ActiveBgp.Bird.Filter ActiveBgp.Data.Exploration
  ActiveBgp.Peering.PeeringPrefix ActiveBgp.Peering.Announcement
open ActiveBgp.Frrp (Asn)
open ActiveBgp.Bird.SetAttribute (Community)

/-! # Announcements that are never sent

`make_announcement` passes its poisons in quotes, which get into the filter.  For BIRD, one
poison is then a string, and more of them are a string that its line does not end.
-/

section Words

end Words

section Reading

variable {lib : Library} {body : Text}

end Reading

section Running

variable {ctx : Filter.Context} {state : State} {path : AsPath 4} {communities : List Community} {net : Network ctx.lib}

end Running

end ActiveBgp.Peering.Exports
