import GitLanes.Layout.Session
import GitLanes.Main
import GitLanes.Topology.Ancestors
import GitLanes.Proofs.Appearance
import GitLanes.Proofs.Attempts
import GitLanes.Proofs.Layout.Drawing
import GitLanes.Proofs.Layout.Edges
import GitLanes.Proofs.Layout.Timeline
import GitLanes.Proofs.Topology.Paths
import GitLanes.Proofs.Topology.Sorting
import GitLanes.Proofs.Layout.Topology
import GitLanes.Proofs.Layout.Contents
import GitLanes.Proofs.Layout.Commits
import GitLanes.Proofs.Layout.Colors
import GitLanes.Proofs.Layout.Lanes
import GitLanes.Proofs.Text.Lines
import GitLanes.Proofs.Text.Quoted
import GitLanes.Proofs.Text.Utf8
import GitLanes.Proofs.Text.Runs
import GitLanes.Proofs.Script.Reading
import GitLanes.Proofs.Script.Names
import GitLanes.Proofs.Script.Announcements
import GitLanes.Proofs.Script.Forms
import GitLanes.Proofs.Script.Quotations
import GitLanes.Proofs.Script.Formatting
import GitLanes.Proofs.Script.Significance
import GitLanes.Proofs.Command.Files
import GitLanes.Proofs.Command.Agreement
import GitLanes.Proofs.Layout.Identifiers
import GitLanes.Proofs.Number.Numerals
import GitLanes.Proofs.Markup.RoundTrip
import GitLanes.Proofs.Markup.Legality
import GitLanes.Proofs.Drawing.Cells
import GitLanes.Proofs.Drawing.Faithfulness
import GitLanes.Proofs.Drawing.Indentation
import GitLanes.Proofs.Drawing.CellIds
import GitLanes.Proofs.Drawing.Characters
import GitLanes.Proofs.Layout.Growth
import GitLanes.Proofs.Topology.Countdown
import GitLanes.Proofs.Topology.Cycles
import GitLanes.Proofs.Topology.Search
import GitLanes.Proofs.Topology.Nodes
import GitLanes.Proofs.Topology.Network
import GitLanes.Proofs.Topology.Representation
import GitLanes.Proofs.Command.Effects
import GitLanes.Proofs.Layout.InPlace
import GitLanes.Proofs.Layout.Sessions
import GitLanes.Proofs.Layout.Condensation
import GitLanes.Proofs.Layout.Notices
import GitLanes.Proofs.Topology.Shape
import GitLanes.Proofs.Layout.Presentation
import GitLanes.Proofs.Number.Rounding
import GitLanes.Proofs.Number.Halves
import GitLanes.Proofs.Number.Decimals
import GitLanes.Proofs.Drawing.Geometry
import GitLanes.Proofs.Drawing.Overflow
import GitLanes.Proofs.Drawing.Labels
import GitLanes.Proofs.Command.Log
