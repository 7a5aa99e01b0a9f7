import ActiveBgp.Rib.Runs
import ActiveBgp.Client.Sync
import ActiveBgp.Client.LongPath
import ActiveBgp.Frrp.Announcement
import ActiveBgp.Frrp.Verdicts
import ActiveBgp.Frrp.Termination
import ActiveBgp.Frrp.LogRoundTrip
import ActiveBgp.Peering.RoundTrip
import ActiveBgp.Peering.Announcement
import ActiveBgp.Collector.Running
import ActiveBgp.Collector.Drivers
import ActiveBgp.Rib.Removal
import ActiveBgp.Collector.Sessions
import ActiveBgp.Collector.Farewells
import ActiveBgp.Frrp.TracedPaths
import ActiveBgp.Peering.Remarks
import ActiveBgp.Exabgp.Stream
import ActiveBgp.Bird.Routes
import ActiveBgp.Bird.Reports
import ActiveBgp.Frrp.Destination
import ActiveBgp.Frrp.Quitting
import ActiveBgp.Rib.Rendering
import ActiveBgp.Rib.Mutators
import ActiveBgp.Server.Restore
import ActiveBgp.Server.Answers
import ActiveBgp.Bird.Wrapped
import ActiveBgp.Frrp.Posts
import ActiveBgp.DefaultRoute.Upstream
import ActiveBgp.Frrp.MuxTables
import ActiveBgp.Peering.AllMuxes
import ActiveBgp.Peering.AnnouncementController
import ActiveBgp.Frrp.DiscoveredPaths
import ActiveBgp.Peering.PoisonCache
import ActiveBgp.Peering.Directory
import ActiveBgp.Peering.QuotedPoisons
